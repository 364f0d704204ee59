import LexicalTransducer.Proofs.Net.FirstFault
import LexicalTransducer.Proofs.Net.Rewording
import LexicalTransducer.Proofs.Symbol.FirstDefinition
import LexicalTransducer.Proofs.Symbol.LongestMatch
import LexicalTransducer.Proofs.Text.Decimal

/-!
# Texts of the sigma section

A line of the sigma section is a code, one blank and a text.  What is read of it is the code and the text
(`sigmaLine_symbolLine`), blanks inside the text and behind it included, and a text of nothing but blanks is kept as
well.  So in a net that is read the symbol under this code is shown as this text (`text_of_symbolLine`).
-/

namespace LexicalTransducer

/-! ### One line -/

/-- The line that gives a code to a text. -/
def symbolLine (code : Nat) (sep : Char) (word : String) : String :=
  toString code ++ sep.toString ++ word

variable {code : Nat} {sep : Char} {word : String}

private theorem toList_symbolLine (code : Nat) (sep : Char) (word : String) :
    (symbolLine code sep word).toList = (toString code).toList ++ sep :: word.toList := by
  simp [symbolLine]

theorem sigmaLine_symbolLine (hcode : code < Text.wordCount32) (hsep : Text.isBlank sep = true)
    (hword : Text.isBlankLine word = true ∨ ∀ c ∈ word.toList.head?, Text.isBlank c = false) :
    sigmaLine (symbolLine code sep word) = .ok ((code : Int), word) := by
  have hdigits : ∀ c ∈ (toString code).toList, (!Text.isBlank c) = true := by
    intro c hc
    rw [Text.isBlank_of_isDigit ((Text.isDecimal_toString code).isDigit hc)]
    rfl
  have hnumber : NetField.integer (toString code) = .ok (code : Int) := by
    have hrange : (code : Int) < Text.signedLimit64 := by
      rw [Text.wordCount32] at hcode
      rw [Text.signedLimit64]
      omega
    rw [NetField.integer, Text.int64?_toString hrange]
  have htrim : (if word.toList.all Text.isBlank then word.toList else Text.trimLeft word.toList) = word.toList := by
    split
    · rfl
    · rename_i hall
      -- the text does not begin with a blank, so none is taken off
      rcases hword with hblank | hhead
      · exact absurd hblank hall
      · rw [Text.trimLeft]
        cases hcs : word.toList with
        | nil => rfl
        | cons c cs =>
          rw [hcs] at hhead
          rw [List.dropWhile_cons_of_neg]
          simp [hhead c (by simp)]
  rw [sigmaLine, toList_symbolLine, List.takeWhile_append_of_pos hdigits, List.dropWhile_append_of_pos hdigits,
    List.takeWhile_cons_of_neg (by simp [hsep]), List.dropWhile_cons_of_neg (by simp [hsep]), List.append_nil,
    String.ofList_toList, hnumber]
  simp only [List.drop_succ_cons, List.drop_zero, htrim, String.ofList_toList]
  rfl

/-- A blank line has no code. -/
private theorem isBlankLine_of_sigmaLine {l : String} {e : Int × String} (h : sigmaLine l = .ok e) :
    Text.isBlankLine l = false := by
  obtain ⟨n, hn, -⟩ := bind_eq_ok.1 h
  cases hb : Text.isBlankLine l with
  | false => rfl
  | true =>
    have hnone : l.toList.takeWhile (!Text.isBlank ·) = [] := by
      cases hcs : l.toList with
      | nil => rfl
      | cons c cs =>
        have hc := List.all_eq_true.1 hb c (by simp [hcs])
        exact List.takeWhile_cons_of_neg (by simp [hc])
    have hno : NetField.integer (String.ofList []) = .error (.invalidInteger "") := by decide +kernel
    rw [hnone, hno] at hn
    cases hn

/-! ### The lines of a section -/

namespace Net

/-- The lines of a section: those behind its header, up to the next header. -/
def sectionLines (s : Section) : List String → List String
  | [] => []
  | l :: ls => if l = s.line then ls.takeWhile fun l => (openedBy? l).isNone else sectionLines s ls

variable {s : Section} {ls ls' : List String} {l : String}

private theorem sectionLines_of_notMem (h : s.line ∉ ls) : sectionLines s (ls ++ ls') = sectionLines s ls' := by
  induction ls with
  | nil => rfl
  | cons l ls ih =>
    rw [List.mem_cons, not_or] at h
    rw [List.cons_append, sectionLines, if_neg (Ne.symm h.1), ih h.2]

private theorem sectionLines_append {next : Section} {later : List String} (h : s.line ∉ ls)
    (hbody : ∀ l ∈ ls', IsContent l) :
    sectionLines s (ls ++ s.line :: (ls' ++ next.line :: later)) = ls' := by
  have hnone : ∀ l ∈ ls', (openedBy? l).isNone = true := by
    intro l hl
    rw [openedBy?, LineKind.ofLine_eq_content.2 (hbody l hl)]
    rfl
  have hnext : (openedBy? next.line).isNone = false := by
    rw [Progress.openedBy?_eq_some.2 rfl]
    rfl
  rw [sectionLines_of_notMem h, sectionLines, if_pos rfl, List.takeWhile_append_of_pos hnone,
    List.takeWhile_cons_of_neg (by simp [hnext]), List.append_nil]

/-- Blank lines outside a section have no part in it. -/
private theorem filter_sectionLines (s : Section) (ls : List String) :
    (sectionLines s ls).filter (!Text.isBlankLine ·) = sectionLines s (ls.filter (!Text.isBlankLine ·)) := by
  have hheader : ∀ l, (openedBy? l).isNone = false → Text.isBlankLine l = false := by
    intro l hl
    cases hb : Text.isBlankLine l with
    | false => rfl
    | true =>
      rw [openedBy?, LineKind.ofLine_of_isBlankLine hb] at hl
      cases hl
  induction ls with
  | nil => rfl
  | cons l ls ih =>
    by_cases hl : l = s.line
    · subst hl
      have hb := hheader s.line (by rw [Progress.openedBy?_eq_some.2 rfl]; rfl)
      have hkeep : (fun l => !(!Text.isBlankLine l) || (openedBy? l).isNone) = fun l => (openedBy? l).isNone := by
        funext l
        cases ho : (openedBy? l).isNone with
        | true => simp
        | false => simp [hheader l ho]
      rw [List.filter_cons_of_pos (by simp [hb]), sectionLines, if_pos rfl, sectionLines, if_pos rfl,
        List.takeWhile_filter, hkeep]
    · rw [sectionLines, if_neg hl, ih, List.filter_cons]
      split
      · rw [sectionLines, if_neg hl]
      · rfl

variable {text : String} {orientation : Orientation} {net : Net}

/-- The alphabet of a net that is read is defined by the lines of its sigma section. -/
private theorem symbols_of_ofText (h : ofText text orientation = .ok net) : ∃ entries b,
    (∀ e, e ∈ entries ↔ ∃ l ∈ sectionLines .sigma (Text.lines text), sigmaLine l = .ok e) ∧
      Steps SymbolTable.Builder.Defines {} entries b ∧ net.symbols = b.finish := by
  obtain ⟨start, lines, ps, b, s, ⟨states, hlines, -⟩, ⟨property, sigma, entries, rfl, ⟨hproperty, -⟩, hread, hdefines⟩,
    -, rfl⟩ := ofText_eq_ok_iff.1 h
  have hfront : Section.sigma.line ∉ [Section.net.line, Section.props.line, property] := by
    simp only [List.mem_cons, List.not_mem_nil, or_false, not_or]
    exact ⟨by decide +kernel, by decide +kernel, fun h => hproperty.1 .sigma h.symm⟩
  have hsigma : (sectionLines .sigma (Text.lines text)).filter (!Text.isBlankLine ·) = sigma := by
    rw [filter_sectionLines, hlines]
    have hbody := ((List.forall₂_and_left sigma entries).1 hread).1
    have hcut : sectionLines .sigma ([Section.net.line, Section.props.line, property] ++ Section.sigma.line ::
        (sigma ++ Section.states.line :: (states ++ [Section.closing.line]))) = sigma :=
      sectionLines_append hfront hbody
    simpa using hcut
  refine ⟨entries, b, fun e => ?_, hdefines, rfl⟩
  rw [mem_iff_of_forall₂ (hread.imp fun _ _ h => h.2), ← hsigma]
  constructor
  · rintro ⟨l, hl, he⟩
    exact ⟨l, (List.mem_filter.1 hl).1, he⟩
  · rintro ⟨l, hl, he⟩
    exact ⟨l, List.mem_filter.2 ⟨hl, by simp [isBlankLine_of_sigmaLine he]⟩, he⟩

/-- In a net that is read, a code has the symbol that is shown as the text of its line, and the text of a character or a
tag that no other line has is split into this code. -/
theorem text_of_symbolLine {code : Nat} {sep : Char} {word : String} (h : ofText text orientation = .ok net)
    (hcode : code < Text.wordCount32) (hsep : Text.isBlank sep = true)
    (hword : Text.isBlankLine word = true ∨ ∀ c ∈ word.toList.head?, Text.isBlank c = false)
    (hline : symbolLine code sep word ∈ sectionLines .sigma (Text.lines text)) :
    ∃ s, net.symbols.symbols[code]? = some s ∧ s.text = word ∧
      (s.isOrdinary = true →
        (∀ l ∈ sectionLines .sigma (Text.lines text), ∀ c, sigmaLine l = .ok (c, word) → c = code) →
        net.symbols.split word = .ok [code]) := by
  obtain ⟨entries, b, hentries, hdefines, hsymbols⟩ := symbols_of_ofText h
  have hb := SymbolTable.Builder.holds_of_steps hdefines
  have hnodup := (SymbolTable.Builder.exists_steps_defines_iff.1 ⟨b, hdefines⟩).nodup
  have hmem : ((code : Int), word) ∈ entries := (hentries _).2 ⟨_, hline, sigmaLine_symbolLine hcode hsep hword⟩
  obtain ⟨s, hs⟩ := hb.exists_symbol hmem
  obtain ⟨word', m, m', hmem', hof, -⟩ := hb.symbol hs
  obtain rfl := eq_of_mem_of_nodup hnodup hmem hmem'
  rw [hsymbols]
  refine ⟨s, hs, (Symbol.grows_ofText hof).2, fun hordinary honce => ?_⟩
  have hempty : b.finish.code? "" = none := by
    rw [Option.eq_none_iff_forall_ne_some]
    exact fun id hid => (hb.code hid).2.ne_empty rfl
  obtain ⟨id, hid⟩ := hb.exists_code hmem ⟨m, s, m', hof, hordinary⟩
  -- the number of the text comes from a line with this text, and there is one only
  obtain ⟨l, hl, hread⟩ := (hentries _).1 (hb.code hid).1
  have hsame : id = code := Int.natCast_inj.1 (honce l hl id hread)
  exact SymbolTable.split_of_code? hempty (hsame ▸ hid)

/-- A net with a space and with a tag that has blanks in it and behind it. -/
def spacedText : String :=
  "##foma-net 1.0##\n##props##\n1 1 1 1 1 1 1 1 1 1 1 1\n##sigma##\n3  \n4\u3000b c \n##states##\n" ++
    "0 3 4 1 0\n1 -1 -1 1\n##end##\n"

theorem text_of_symbolLine_spaced : ∃ net, ofText spacedText .normal = .ok net ∧
    (∃ s, net.symbols.symbols[3]? = some s ∧ s.text = " ") ∧ net.symbols.split "b c " = .ok [4] := by
  have hlines : sectionLines .sigma (Text.lines spacedText) = [symbolLine 3 ' ' " ", symbolLine 4 '\u3000' "b c "] := by
    decide +kernel
  have hread : (ofText spacedText .normal).toOption.map (·.symbols.symbols[4]?) =
      some (some (.multichar "b c ")) := by decide +kernel
  obtain ⟨net, hnet, htag⟩ := Option.map_eq_some_iff.1 hread
  rw [toOption_eq_some] at hnet
  have hthirdLine : symbolLine 3 ' ' " " ∈ sectionLines .sigma (Text.lines spacedText) := by simp [hlines]
  have hfourthLine : symbolLine 4 '\u3000' "b c " ∈ sectionLines .sigma (Text.lines spacedText) := by simp [hlines]
  have hblank : Text.isBlankLine " " = true := by decide +kernel
  have hhead : ∀ c ∈ "b c ".toList.head?, Text.isBlank c = false := by
    have hfirst : "b c ".toList.head? = some 'b' := by decide +kernel
    intro c hc
    cases hfirst.symm.trans hc
    decide
  obtain ⟨s, hs, htext, -⟩ := text_of_symbolLine hnet (by decide) (by decide) (.inl hblank) hthirdLine
  obtain ⟨tag, htag', -, hsplit⟩ := text_of_symbolLine hnet (by decide) (by decide) (.inr hhead) hfourthLine
  cases htag.symm.trans htag'
  refine ⟨net, hnet, ⟨s, hs, htext⟩, hsplit rfl ?_⟩
  have hthird : sigmaLine (symbolLine 3 ' ' " ") = .ok (3, " ") := by decide +kernel
  have hfourth : sigmaLine (symbolLine 4 '\u3000' "b c ") = .ok (4, "b c ") := by decide +kernel
  rw [hlines]
  intro l hl c hc
  simp only [List.mem_cons, List.not_mem_nil, or_false] at hl
  rcases hl with rfl | rfl
  · simp [hthird] at hc
  · simpa [hfourth, eq_comm] using hc

end Net

end LexicalTransducer
