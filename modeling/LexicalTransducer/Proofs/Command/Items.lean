import LexicalTransducer.Proofs.Command.Arguments
import LexicalTransducer.Proofs.Lists
import LexicalTransducer.Proofs.Outcome
import LexicalTransducer.Proofs.Text.Decimal

/-!
# Items of a command line

A command line is a row of options, with the values that they take, and of words, and maybe an end of the options with
more words behind it (`commandLine`).  These are the command lines that are read (`readArguments_commandLine`,
`exists_commandLine`), and of what they set the last of each kind counts, while no word is lost (`ofArguments_items`).
-/

namespace LexicalTransducer.Command

/-- An option that takes a value, with a value that it takes. -/
inductive Setting
  | path (file : String)
  | orientation (orientation : Orientation)
  | maxDepth (numeral : String) (depth : Nat) (hspells : Text.Spells numeral.toList depth) (hlow : 1 ≤ depth)
      (hhigh : depth < Text.wordCount64)

namespace Setting

def option : Setting → ValueOption
  | .path _ => .path
  | .orientation _ => .orientation
  | .maxDepth .. => .maxDepth

def value : Setting → String
  | .path file => file
  | .orientation given => given.name
  | .maxDepth numeral .. => numeral

def path? : Setting → Option String
  | .path file => some file
  | _ => none

def orientation? : Setting → Option Orientation
  | .orientation given => some given
  | _ => none

def maxDepth? : Setting → Option Nat
  | .maxDepth _ depth .. => some depth
  | _ => none

def apply (o : Options) : Setting → Options
  | .path file => { o with path := some file }
  | .orientation given => { o with orientation := given }
  | .maxDepth _ depth .. => { o with limits := { maxDepth := depth } }

end Setting

/-- An option, with its value if it takes one, or a word. -/
inductive Item
  /-- An option with its value in an argument of its own. -/
  | separate (setting : Setting) (name : String) (h : name ∈ setting.option.names)
  /-- An option with its value in one argument. -/
  | joined (setting : Setting)
  | invert (name : String) (h : name ∈ invertNames)
  | generate (name : String) (h : name ∈ generateNames)
  | word (text : String) (h : IsWord text)

namespace Item

def arguments : Item → List String
  | .separate setting name _ => [name, setting.value]
  | .joined setting => [setting.option.longName ++ "=" ++ setting.value]
  | .invert name _ => [name]
  | .generate name _ => [name]
  | .word text _ => [text]

/-- What an item sets.  To invert is to set the orientation. -/
def setting? : Item → Option Setting
  | .separate setting _ _ => some setting
  | .joined setting => some setting
  | .invert .. => some (.orientation .invert)
  | _ => none

def word? : Item → Option String
  | .word text _ => some text
  | _ => none

def apply (o : Options) : Item → Options
  | .separate setting _ _ => setting.apply o
  | .joined setting => setting.apply o
  | .invert .. => { o with orientation := .invert }
  | .generate .. => { o with direction := .generate }
  | .word text _ => { o with words := o.words ++ [text] }

end Item

/-- The arguments of some items, and the words behind an end of the options, if there is one. -/
def commandLine (items : List Item) : Option (List String) → List String
  | none => items.flatMap Item.arguments
  | some words => items.flatMap Item.arguments ++ endMark :: words

/-- All words of a command line. -/
def wordsOf (items : List Item) (operands : Option (List String)) : List String :=
  items.filterMap Item.word? ++ operands.getD []

def settings (items : List Item) : List Setting :=
  items.filterMap Item.setting?

/-! ### Values -/

private theorem ofName?_eq_some {name : String} {orientation : Orientation} :
    Orientation.ofName? name = some orientation ↔ name = orientation.name := by
  constructor
  · intro h
    have hname : (orientation.name == name) = true := List.find?_some (p := fun o : Orientation => o.name == name) h
    exact (eq_of_beq hname).symm
  · rintro rfl
    cases orientation <;> decide +kernel

namespace Options

variable {o o' : Options} {value : String} {option : ValueOption} {n : Nat}

private theorem depth_eq_ok : depth value = .ok n ↔ Text.Spells value.toList n ∧ 1 ≤ n ∧ n < Text.wordCount64 := by
  rw [depth]
  constructor
  · intro h
    split at h
    · rename_i m hm
      cases h
      obtain ⟨hspells, hhigh⟩ := (Text.nat64?_eq_some (Nat.succ_pos m)).1 hm
      exact ⟨hspells, Nat.succ_pos m, hhigh⟩
    · cases h
  · rintro ⟨hspells, hlow, hhigh⟩
    have hn : Text.nat64? value = some n := (Text.nat64?_eq_some hlow).2 ⟨hspells, hhigh⟩
    obtain ⟨m, rfl⟩ := Nat.exists_eq_add_of_le' hlow
    rw [hn]

/-- An option takes a value exactly if the two make up a setting, and then this is what is set. -/
private theorem assign_eq_ok : o.assign value option = .ok o' ↔
    ∃ setting : Setting, setting.option = option ∧ setting.value = value ∧ o' = setting.apply o := by
  constructor
  · intro h
    cases option with
    | path =>
      cases h
      exact ⟨.path value, rfl, rfl, rfl⟩
    | orientation =>
      simp only [assign] at h
      split at h
      · rename_i orientation horientation
        cases h
        exact ⟨.orientation orientation, rfl, (ofName?_eq_some.1 horientation).symm, rfl⟩
      · cases h
    | maxDepth =>
      obtain ⟨n, hn, h⟩ := bind_eq_ok.1 h
      cases h
      obtain ⟨hspells, hlow, hhigh⟩ := depth_eq_ok.1 hn
      exact ⟨.maxDepth value n hspells hlow hhigh, rfl, rfl, rfl⟩
  · rintro ⟨setting, rfl, rfl, rfl⟩
    cases setting with
    | path file => rfl
    | orientation orientation =>
      simp only [Setting.option, Setting.value, assign, ofName?_eq_some.2 rfl]
      rfl
    | maxDepth numeral depth hspells hlow hhigh =>
      exact bind_eq_ok.2 ⟨depth, depth_eq_ok.2 ⟨hspells, hlow, hhigh⟩, rfl⟩

/-! ### Reading items -/

variable {items : List Item} {operands : Option (List String)} {args rest : List String}

/-- An item is read for itself. -/
private theorem readArguments_item (o : Options) (item : Item) (rest : List String) :
    o.readArguments (item.arguments ++ rest) = (item.apply o).readArguments rest := by
  cases item with
  | separate setting name h =>
    have hassign : o.assign setting.value setting.option = .ok (setting.apply o) :=
      assign_eq_ok.2 ⟨setting, rfl, rfl, rfl⟩
    simp only [Item.arguments, List.cons_append, List.nil_append, readArguments,
      Argument.ofText_of_looks (.valued h), hassign]
    rfl
  | joined setting =>
    have hassign : o.assign setting.value setting.option = .ok (setting.apply o) :=
      assign_eq_ok.2 ⟨setting, rfl, rfl, rfl⟩
    simp only [Item.arguments, List.cons_append, List.nil_append, readArguments,
      Argument.ofText_assigned, hassign]
    rfl
  | invert name h =>
    simp only [Item.arguments, List.cons_append, List.nil_append, readArguments,
      Argument.ofText_of_looks (.invert h)]
    rfl
  | generate name h =>
    simp only [Item.arguments, List.cons_append, List.nil_append, readArguments,
      Argument.ofText_of_looks (.generate h)]
    rfl
  | word text h =>
    simp only [Item.arguments, List.cons_append, List.nil_append, readArguments,
      Argument.ofText_of_looks (.positional h)]
    rfl

private theorem readArguments_items (o : Options) (items : List Item) (rest : List String) :
    o.readArguments (items.flatMap Item.arguments ++ rest) = (items.foldl Item.apply o).readArguments rest := by
  induction items generalizing o with
  | nil => rfl
  | cons item items ih => rw [List.flatMap_cons, List.append_assoc, readArguments_item, ih, List.foldl_cons]

private theorem readArguments_endMark (o : Options) (words : List String) :
    o.readArguments (endMark :: words) = .ok { o with words := o.words ++ words } := by
  simp only [readArguments, Argument.ofText_of_looks .endOfOptions]

/-- What is read of a command line: what its items say, and the words behind the end of the options. -/
def ofItems (items : List Item) (operands : Option (List String)) : Options :=
  let o := items.foldl Item.apply {}
  { o with words := o.words ++ operands.getD [] }

theorem readArguments_commandLine (items : List Item) (operands : Option (List String)) :
    readArguments {} (commandLine items operands) = .ok (ofItems items operands) := by
  cases operands with
  | none =>
    have hitems := readArguments_items {} items []
    rw [List.append_nil] at hitems
    rw [commandLine, hitems, readArguments, ofItems, Option.getD_none, List.append_nil]
  | some words =>
    rw [commandLine, readArguments_items, readArguments_endMark]
    rfl

private theorem commandLine_cons (item : Item) (items : List Item) (operands : Option (List String)) :
    commandLine (item :: items) operands = item.arguments ++ commandLine items operands := by
  cases operands <;> simp [commandLine]

/-- Every command line that is read is made of items. -/
theorem exists_commandLine (h : o.readArguments args = .ok o') :
    ∃ items operands, args = commandLine items operands := by
  -- what is read first is an item, and the items behind it are known by induction
  have hcons : ∀ (item : Item) {rest : List String}, (∃ items operands, rest = commandLine items operands) →
      ∃ items operands, item.arguments ++ rest = commandLine items operands := by
    rintro item _ ⟨items, operands, rfl⟩
    exact ⟨item :: items, operands, (commandLine_cons item items operands).symm⟩
  fun_induction readArguments o args with
  | case1 o => exact ⟨[], none, rfl⟩
  | case2 o argument rest option value hkind ih =>
    obtain ⟨o₁, hassign, hrest⟩ := bind_eq_ok.1 h
    obtain ⟨setting, rfl, rfl, -⟩ := assign_eq_ok.1 hassign
    cases (Argument.ofText_eq_iff (by simp)).1 hkind
    exact hcons (.joined setting) (ih o₁ hrest)
  | case3 => cases h
  | case4 o name option hkind value rest ih =>
    obtain ⟨o₁, hassign, hrest⟩ := bind_eq_ok.1 h
    obtain ⟨setting, rfl, rfl, -⟩ := assign_eq_ok.1 hassign
    cases (Argument.ofText_eq_iff (by simp)).1 hkind with
    | valued hname => exact hcons (.separate setting name hname) (ih o₁ hrest)
  | case5 o name rest hkind ih =>
    cases (Argument.ofText_eq_iff (by simp)).1 hkind with
    | invert hname => exact hcons (.invert name hname) (ih h)
  | case6 o name rest hkind ih =>
    cases (Argument.ofText_eq_iff (by simp)).1 hkind with
    | generate hname => exact hcons (.generate name hname) (ih h)
  | case7 o argument rest hkind =>
    cases (Argument.ofText_eq_iff (by simp)).1 hkind
    exact ⟨[], some rest, rfl⟩
  | case8 => cases h
  | case9 o text rest hkind ih =>
    cases (Argument.ofText_eq_iff (by simp)).1 hkind with
    | positional hword => exact hcons (.word text hword) (ih h)

/-! ### What the items say -/

/-- Of a field that settings alone write the last setting counts. -/
private theorem field_ofItems {β : Type} (field : Options → β) (write : Setting → Option β)
    (hsetting : ∀ o (setting : Setting), field (setting.apply o) = (write setting).getD (field o))
    (hdirection : ∀ o direction, field { o with direction } = field o)
    (hwords : ∀ o words, field { o with words } = field o) (items : List Item) (operands : Option (List String)) :
    field (ofItems items operands) = ((settings items).filterMap write).getLast?.getD (field {}) := by
  rw [ofItems, hwords, settings, List.filterMap_filterMap]
  refine foldl_eq_getLast? (σ := Options) (fun o item => ?_) items {}
  cases item with
  | separate setting => exact hsetting o setting
  | joined setting => exact hsetting o setting
  | invert => exact hsetting o (.orientation .invert)
  | generate => exact hdirection o .generate
  | word => exact hwords o _

private theorem orientation_ofItems (items : List Item) (operands : Option (List String)) :
    (ofItems items operands).orientation = ((settings items).filterMap Setting.orientation?).getLast?.getD .normal := by
  refine field_ofItems Options.orientation Setting.orientation? (fun o setting => ?_) (fun _ _ => rfl) (fun _ _ => rfl)
    items operands
  cases setting <;> rfl

private theorem maxDepth_ofItems (items : List Item) (operands : Option (List String)) :
    (ofItems items operands).limits.maxDepth =
      ((settings items).filterMap Setting.maxDepth?).getLast?.getD ({} : Limits).maxDepth := by
  refine field_ofItems (fun o => o.limits.maxDepth) Setting.maxDepth? (fun o setting => ?_) (fun _ _ => rfl)
    (fun _ _ => rfl) items operands
  cases setting <;> rfl

private theorem path_ofItems (items : List Item) (operands : Option (List String)) :
    (ofItems items operands).path = ((settings items).filterMap Setting.path?).getLast? := by
  have hlast := field_ofItems Options.path (fun setting => setting.path?.map some)
    (fun o setting => by cases setting <;> rfl) (fun _ _ => rfl) (fun _ _ => rfl) items operands
  rw [← List.map_filterMap, List.getLast?_map] at hlast
  rw [hlast]
  cases ((settings items).filterMap Setting.path?).getLast? <;> rfl

private theorem direction_foldl (items : List Item) (o : Options) : (items.foldl Item.apply o).direction = .generate ↔
    o.direction = .generate ∨ ∃ name h, Item.generate name h ∈ items := by
  induction items generalizing o with
  | nil => simp
  | cons item items ih =>
    rw [List.foldl_cons, ih]
    cases item with
    | separate setting => cases setting <;> simp [Item.apply, Setting.apply]
    | joined setting => cases setting <;> simp [Item.apply, Setting.apply]
    | invert => simp [Item.apply]
    | generate name h => exact ⟨fun _ => .inr ⟨name, h, List.mem_cons_self ..⟩, fun _ => .inl rfl⟩
    | word => simp [Item.apply]

private theorem words_ofItems (items : List Item) (operands : Option (List String)) :
    (ofItems items operands).words = wordsOf items operands := by
  have hfoldl : ∀ o : Options, (items.foldl Item.apply o).words = o.words ++ items.filterMap Item.word? := by
    induction items with
    | nil => simp
    | cons item items ih =>
      intro o
      rw [List.foldl_cons, ih]
      cases item with
      | separate setting => cases setting <;> rfl
      | joined setting => cases setting <;> rfl
      | invert => rfl
      | generate => rfl
      | word => simp [Item.apply, Item.word?]
  rw [ofItems, wordsOf, hfoldl]
  rfl

/-- The default file is no more than a file, and the first word may go. -/
private theorem fields_withDefaultPath (o : Options) (environment : Option String) :
    (o.withDefaultPath environment).direction = o.direction ∧
      (o.withDefaultPath environment).orientation = o.orientation ∧
      (o.withDefaultPath environment).limits = o.limits := by
  unfold withDefaultPath
  split <;> exact ⟨rfl, rfl, rfl⟩

theorem withDefaultPath_of_path {path : String} (h : o.path = some path) (environment : Option String) :
    o.withDefaultPath environment = o := by
  simp only [withDefaultPath, h]

private theorem withDefaultPath_none (h : o.path = none) : (o.withDefaultPath none).path = o.words.head? ∧
    (o.withDefaultPath none).words = o.words.tail := by
  cases hwords : o.words <;> simp [withDefaultPath, h, hwords]

/-- A command line of items is read.  The last item of each kind counts, and the words stay as they are and in their
order, but that the first is the file if neither an item nor the environment names one. -/
theorem ofArguments_items (environment : Option String) (items : List Item) (operands : Option (List String)) :
    ∃ o, ofArguments environment (commandLine items operands) = .ok o ∧
      (o.direction = .generate ↔ ∃ name h, Item.generate name h ∈ items) ∧
      o.orientation = ((settings items).filterMap Setting.orientation?).getLast?.getD .normal ∧
      o.limits.maxDepth = ((settings items).filterMap Setting.maxDepth?).getLast?.getD 2000 ∧
      (∀ path, ((settings items).filterMap Setting.path?).getLast? = some path →
        o.path = some path ∧ o.words = wordsOf items operands) ∧
      (((settings items).filterMap Setting.path?).getLast? = none → ∀ path, environment = some path →
        o.path = some path ∧ o.words = wordsOf items operands) ∧
      (((settings items).filterMap Setting.path?).getLast? = none → environment = none →
        o.path = (wordsOf items operands).head? ∧ o.words = (wordsOf items operands).tail) := by
  have hpath := path_ofItems items operands
  have hwords := words_ofItems items operands
  obtain ⟨hdirection, horientation, hlimits⟩ := fields_withDefaultPath (ofItems items operands) environment
  rw [← hpath, ← hwords]
  refine ⟨(ofItems items operands).withDefaultPath environment, ?_, ?_, ?_, ?_, fun path h => ?_, ?_, ?_⟩
  · rw [ofArguments, readArguments_commandLine]
    rfl
  · rw [hdirection]
    refine (direction_foldl items {}).trans (or_iff_right ?_)
    exact Direction.noConfusion
  · rw [horientation, orientation_ofItems]
  · rw [hlimits, maxDepth_ofItems]
  · rw [withDefaultPath_of_path h]
    exact ⟨h, rfl⟩
  · rintro h path rfl
    simp [withDefaultPath, h]
  · rintro h rfl
    exact withDefaultPath_none h

/-- Options between words, one of them with a value that looks like the end of the options. -/
def interleaved : List Item :=
  [.word "net.att" (.inr (by decide +kernel)), .generate "-g" (by decide), .separate (.path "--") "-f" (by decide),
    .word "" (.inr (by decide +kernel)), .invert "-i" (by decide),
    .joined (.maxDepth "+007" 7 (Text.signed?_eq_some.1 (by decide +kernel)) (by decide) (by decide)),
    .word "-" (.inl rfl)]

theorem ofArguments_interleaved : ∃ o, ofArguments (some "default.att")
      ["net.att", "-g", "-f", "--", "", "-i", "--max-depth=+007", "-", "--", "-g", "--"] = .ok o ∧
    o.direction = .generate ∧ o.orientation = .invert ∧ o.limits.maxDepth = 7 ∧ o.path = some "--" ∧
    o.words = ["net.att", "", "-", "-g", "--"] := by
  have hline : commandLine interleaved (some ["-g", "--"]) =
      ["net.att", "-g", "-f", "--", "", "-i", "--max-depth=+007", "-", "--", "-g", "--"] := by
    decide +kernel
  obtain ⟨o, ho, hdirection, horientation, hdepth, hpath, -⟩ :=
    ofArguments_items (some "default.att") interleaved (some ["-g", "--"])
  rw [hline] at ho
  obtain ⟨hfile, hwords⟩ := hpath "--" (by decide +kernel)
  refine ⟨o, ho, hdirection.2 ⟨"-g", by decide, by simp [interleaved]⟩, horientation.trans ?_, hdepth.trans ?_, hfile,
    hwords.trans ?_⟩
  · decide +kernel
  · decide +kernel
  · decide +kernel

end Options

end LexicalTransducer.Command
