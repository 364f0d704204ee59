import LexicalTransducer.Flag.Basic

/-!
# The written form of a flag diacritic

A flag is written `@X.feature@` or `@X.feature.value@`.  The feature ends at the first dot, the value may hold
further ones, and neither may be empty.  `NamedFlag.ofText` reads this form and `NamedFlag.text` writes it.
-/

namespace LexicalTransducer

inductive FlagFault
  /-- Not of the shape `@X.…@`. -/
  | notAFlag
  /-- Of that shape, but `X` is none of the letters P, U, R, D, C. -/
  | unsupportedOperation
  /-- A known letter with an empty name or the wrong number of names. -/
  | malformed
  /-- One name more than there are numbers. -/
  | tooManyNames
deriving DecidableEq, Repr

/-- A flag diacritic with its names as written. -/
structure NamedFlag where
  op : FlagOp
  feature : String
  value : Option String
deriving DecidableEq, Repr

/-- The operation with this letter, by whether a value is given. -/
def FlagOp.ofLetter (letter : Char) (hasValue : Bool) : Except FlagFault FlagOp :=
  match letter, hasValue with
  | 'P', true => .ok .positive
  | 'U', true => .ok .unify
  | 'R', false => .ok .requireFeature
  | 'R', true => .ok .requireValue
  | 'D', false => .ok .disallowFeature
  | 'D', true => .ok .disallowValue
  | 'C', false => .ok .clear
  | 'P', false | 'U', false | 'C', true => .error .malformed
  | _, _ => .error .unsupportedOperation

namespace NamedFlag

/-- What stands between an at sign at the start of a text and another one at its end. -/
def betweenAts? : List Char → Option (List Char)
  | '@' :: cs => if cs.getLast? = some '@' then some cs.dropLast else none
  | _ => none

/-- Split at the first dot, which goes to neither part. -/
def splitDot (cs : List Char) : List Char × Option (List Char) :=
  match cs.dropWhile (· != '.') with
  | [] => (cs, none)
  | _ :: rest => (cs.takeWhile (· != '.'), some rest)

def ofText (text : String) : Except FlagFault NamedFlag :=
  match betweenAts? text.toList with
  | some (letter :: '.' :: names) =>
    let (feature, value) := splitDot names
    if feature.isEmpty || value == some [] then .error .malformed
    else do
      let op ← FlagOp.ofLetter letter value.isSome
      return { op, feature := String.ofList feature, value := value.map String.ofList }
  | _ => .error .notAFlag

def text (f : NamedFlag) : String :=
  let value := match f.value with
    | some v => '.' :: v.toList
    | none => []
  String.ofList ('@' :: f.op.letter :: '.' :: f.feature.toList ++ value ++ ['@'])

end NamedFlag

end LexicalTransducer
