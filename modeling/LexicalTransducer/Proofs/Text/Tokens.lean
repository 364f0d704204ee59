import LexicalTransducer.Text.Lines

/-!
# Tokens between blanks

A text is made of tokens without blanks and of blanks around them (`Spaced`).  Every text is, in one way, and its tokens
are what it is split into (`spaced_iff`).
-/

namespace LexicalTransducer.Text

/-- A text is made of these tokens and of blanks around them.  Two tokens have a blank between them. -/
inductive Spaced : List Char → List String → Prop
  | blanks {gap : List Char} (hgap : ∀ c ∈ gap, isBlank c = true) : Spaced gap []
  | token {gap token rest : List Char} {tokens : List String} (hgap : ∀ c ∈ gap, isBlank c = true) (hne : token ≠ [])
      (htoken : ∀ c ∈ token, isBlank c = false) (hend : ∀ c ∈ rest.head?, isBlank c = true) (h : Spaced rest tokens) :
      Spaced (gap ++ (token ++ rest)) (String.ofList token :: tokens)

variable {c : Char} {cs cs' gap token : List Char} {ts : List String}

/-! ### Every text has tokens -/

private theorem Spaced.cons_blank (h : Spaced cs ts) (hc : isBlank c = true) : Spaced (c :: cs) ts := by
  cases h with
  | blanks hgap => exact .blanks (List.forall_mem_cons.2 ⟨hc, hgap⟩)
  | token hgap hne htoken hend h => exact .token (List.forall_mem_cons.2 ⟨hc, hgap⟩) hne htoken hend h

/-- One more character begins a token, or it stands in front of the one that the text begins with. -/
private theorem Spaced.exists_cons (h : Spaced cs ts) (hc : isBlank c = false) : ∃ ts', Spaced (c :: cs) ts' := by
  have hone : ∀ c' ∈ [c], isBlank c' = false := by simp [hc]
  by_cases hend : ∀ c' ∈ cs.head?, isBlank c' = true
  · exact ⟨_, .token (List.forall_mem_nil _) (List.cons_ne_nil c []) hone hend h⟩
  · cases h with
    | blanks hgap => exact absurd (fun c' hc' => hgap c' (List.mem_of_mem_head? hc')) hend
    | @token gap token rest tokens hgap hne htoken hend' h =>
      cases gap with
      | nil =>
        have htoken' : ∀ c' ∈ c :: token, isBlank c' = false := List.forall_mem_cons.2 ⟨hc, htoken⟩
        exact ⟨_, .token (List.forall_mem_nil _) (List.cons_ne_nil c token) htoken' hend' h⟩
      | cons c' gap => exact absurd (fun _ hc' => Option.some.inj hc' ▸ hgap c' (List.mem_cons_self ..)) hend

private theorem exists_spaced (cs : List Char) : ∃ ts, Spaced cs ts := by
  induction cs with
  | nil => exact ⟨[], .blanks (List.forall_mem_nil _)⟩
  | cons c cs ih =>
    obtain ⟨ts, h⟩ := ih
    cases hc : isBlank c with
    | true => exact ⟨ts, h.cons_blank hc⟩
    | false => exact h.exists_cons hc

/-! ### A text is split into its tokens -/

/-- A text falls apart at a blank. -/
private theorem tokens_append (cs cs' : List Char) (hc : isBlank c = true) :
    tokens (String.ofList (cs ++ c :: cs')) = tokens (String.ofList cs) ++ tokens (String.ofList cs') := by
  simp only [tokens, String.toList_ofList]
  rw [List.splitOnP_append_cons cs cs' hc, List.filter_append, List.map_append]

private theorem tokens_cons_blank (cs : List Char) (hc : isBlank c = true) :
    tokens (String.ofList (c :: cs)) = tokens (String.ofList cs) :=
  tokens_append [] cs hc

private theorem tokens_append_of_blanks (hgap : ∀ c ∈ gap, isBlank c = true) (cs : List Char) :
    tokens (String.ofList (gap ++ cs)) = tokens (String.ofList cs) := by
  induction gap with
  | nil => rfl
  | cons c gap ih =>
    obtain ⟨hc, hgap⟩ := List.forall_mem_cons.1 hgap
    rw [List.cons_append, tokens_cons_blank _ hc, ih hgap]

private theorem tokens_singleton (hne : token ≠ []) (htoken : ∀ c ∈ token, isBlank c = false) :
    tokens (String.ofList token) = [String.ofList token] := by
  simp [tokens, List.splitOnP_eq_singleton htoken, hne]

private theorem Spaced.tokens_eq (h : Spaced cs ts) : tokens (String.ofList cs) = ts := by
  induction h with
  | @blanks gap hgap =>
    have hnone := tokens_append_of_blanks hgap []
    rw [List.append_nil] at hnone
    exact hnone
  | @token gap token rest tokens hgap hne htoken hend h ih =>
    rw [tokens_append_of_blanks hgap]
    cases rest with
    | nil =>
      rw [List.append_nil, tokens_singleton hne htoken, ← ih]
      rfl
    | cons c rest =>
      have hc : isBlank c = true := hend c rfl
      rw [tokens_append token rest hc, tokens_singleton hne htoken, ← ih, tokens_cons_blank rest hc]
      rfl

/-- The tokens of a text are those that it is made of. -/
theorem spaced_iff {line : String} : Spaced line.toList ts ↔ ts = tokens line := by
  have heq : ∀ {ts}, Spaced line.toList ts → ts = tokens line := by
    intro ts h
    rw [← h.tokens_eq, String.ofList_toList]
  constructor
  · exact heq
  · rintro rfl
    obtain ⟨ts, h⟩ := exists_spaced line.toList
    exact heq h ▸ h

end LexicalTransducer.Text
