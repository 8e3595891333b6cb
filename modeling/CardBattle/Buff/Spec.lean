import CardBattle.Binary.Decimal
import CardBattle.Buff.Basic
import CardBattle.Fault

/-!
# CardBattle.Buff.Spec

Buffs as text: `kind,parameter,stacks,duration`. The four fields are read first; what the
parameter means depends on the kind, and is read when the buff is made.

* `SwiftReach.read?`: `L2`, `R1`, `L2R1` or `LR2`, in any case.
* `BuffSpec.read`: the four fields.
* `BuffSpec.toBuff`: the buff, its parameter read as its kind needs it.
-/

namespace CardBattle

namespace SwiftReach

/-- What follows an `L`: a distance, or two with an `R` between them. -/
def afterLeft? (cs : List Char) : Option SwiftReach :=
  match Text.cut 'R' cs with
  | none =>
    match Numeral.nat32? cs with
    | none => none
    | some n => some ⟨n, 0⟩
  | some (left, right) =>
    match Numeral.nat32? left, Numeral.nat32? right with
    | some n, some m => some ⟨n, m⟩
    | _, _ => none

def read? (text : List Char) : Option SwiftReach :=
  match (Text.trim text).map Char.toUpper with
  | 'L' :: 'R' :: cs => (Numeral.nat32? cs).map fun n => ⟨n, n⟩
  | 'L' :: cs => afterLeft? cs
  | 'R' :: cs => (Numeral.nat32? cs).map fun n => ⟨0, n⟩
  | _ => none

end SwiftReach

inductive BuffFault where
  | fieldCount (text : String)
  | unknownBuff (name : String)
  | invalidNumber (field value : String)
  | invalidResistance (parameter : String)
deriving DecidableEq

instance : Fault BuffFault where
  code
    | .fieldCount _ => "BUFF_SPEC_FIELD_COUNT"
    | .unknownBuff _ => "BUFF_SPEC_UNKNOWN_BUFF"
    | .invalidNumber _ _ => "BUFF_SPEC_INVALID_NUMBER"
    | .invalidResistance _ => "BUFF_SPEC_INVALID_RESISTANCE"
  message
    | .fieldCount text =>
      "buff spec " ++ quoted text ++ " must have four comma-separated fields"
    | .unknownBuff name => "unknown buff id " ++ quoted name
    | .invalidNumber field value => "invalid " ++ field ++ " " ++ quoted value
    | .invalidResistance parameter => "invalid resistance parameter " ++ quoted parameter
  severity _ := .validation

structure BuffSpec where
  kind : BuffKind
  parameter : String
  stack : Nat
  duration : Int
deriving DecidableEq

namespace BuffSpec

/-- Stacks below 1 count as 1, and those beyond the largest count as that. -/
def clampStacks (n : Int) : Nat := Count.saturate (max 1 n).toNat

/-- A number read by `reader` from the trimmed text; a fault shows the text as it was given. -/
def number {α : Type} (reader : List Char → Option α) (field : String) (text : List Char) :
    Except BuffFault α :=
  match reader (Text.trim text) with
  | some n => .ok n
  | none => .error (.invalidNumber field (String.ofList text))

def read (text : List Char) : Except BuffFault BuffSpec :=
  match (Text.fields ',' text).map Text.trim with
  | [kind, parameter, stack, duration] =>
    match (Vocabulary.read? kind : Option BuffKind) with
    | none => .error (.unknownBuff (String.ofList kind))
    | some kind =>
      match number Numeral.int64? "stacks" stack with
      | .error e => .error e
      | .ok stack =>
        match number Numeral.int32? "duration" duration with
        | .error e => .error e
        | .ok duration =>
          .ok { kind, parameter := String.ofList parameter, stack := clampStacks stack, duration }
  | _ => .error (.fieldCount (String.ofList text))

/-- A percentage against one element, or against all. -/
def resistance (parameter : List Char) : Except BuffFault (Option Element × Int) :=
  match Text.cut ':' parameter with
  | none =>
    match number Numeral.int32? "resistance" parameter with
    | .error e => .error e
    | .ok percent => .ok (none, percent)
  | some (element, percent) =>
    match (Vocabulary.read? (Text.trim element) : Option Element) with
    | none => .error (.invalidResistance (String.ofList parameter))
    | some element =>
      match number Numeral.int32? "resistance" percent with
      | .error e => .error e
      | .ok percent => .ok (some element, percent)

def percent (parameter : List Char) : Except BuffFault Single :=
  number Binary.read? "parameter" parameter

/-- The data of a buff. A direction of Swift that cannot be read reaches nowhere. -/
def data (kind : BuffKind) (parameter : List Char) : Except BuffFault BuffData :=
  match kind with
  | .guard => .ok .guard
  | .cursed => .ok .cursed
  | .gifted => .ok .gifted
  | .feared => .ok (.feared 0)
  | .swift => .ok (.swift ((SwiftReach.read? parameter).getD SwiftReach.nowhere))
  | .blessed => (percent parameter).map .blessed
  | .lifesteel => (percent parameter).map fun p => .lifesteel p false
  | .increaseDmg => (percent parameter).map .increaseDmg
  | .boostDmg => (percent parameter).map .boostDmg
  | .fragile => (percent parameter).map .fragile
  | .bleeding => (percent parameter).map .bleeding
  | .reduceAtk => (percent parameter).map .reduceAtk
  | .reqChange => (number Numeral.int32? "requirement modifier" parameter).map .reqChange
  | .increaseRes => (resistance parameter).map fun r => .increaseRes r.1 r.2
  | .reduceRes => (resistance parameter).map fun r => .reduceRes r.1 r.2

def toBuff (spec : BuffSpec) : Except BuffFault Buff :=
  (data spec.kind spec.parameter.toList).map fun d => Buff.make d spec.stack spec.duration

end BuffSpec
end CardBattle
