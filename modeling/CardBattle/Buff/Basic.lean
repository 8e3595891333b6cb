import CardBattle.Binary.Basic
import CardBattle.Card

/-!
# CardBattle.Buff.Basic

Buffs: lasting effects on a fighter, good or bad. A buff has a kind, the data of its kind, a
number of stacks and a duration in turn starts of its owner. Duration -1 is permanent; at
duration 0 a buff is inert and waits to be pruned.

* `BuffKind`: the fifteen kinds, which of them stack, which are good.
* `Buff.make`: a buff with stacks and duration in their range.
-/

namespace CardBattle

inductive BuffKind where
  | guard
  | blessed
  | lifesteel
  | reqChange
  | increaseDmg
  | boostDmg
  | increaseRes
  | gifted
  | swift
  | reduceRes
  | fragile
  | bleeding
  | feared
  | reduceAtk
  | cursed
deriving DecidableEq

instance : Vocabulary BuffKind where
  values :=
    [.guard, .blessed, .lifesteel, .reqChange, .increaseDmg, .boostDmg, .increaseRes, .gifted,
      .swift, .reduceRes, .fragile, .bleeding, .feared, .reduceAtk, .cursed]
  word
    | .guard => "Guard"
    | .blessed => "Blessed"
    | .lifesteel => "Lifesteel"
    | .reqChange => "ReqChange"
    | .increaseDmg => "IncreaseDmg"
    | .boostDmg => "BoostDmg"
    | .increaseRes => "IncreaseRes"
    | .gifted => "Gifted"
    | .swift => "Swift"
    | .reduceRes => "ReduceRes"
    | .fragile => "Fragile"
    | .bleeding => "Bleeding"
    | .feared => "Feared"
    | .reduceAtk => "ReduceAtk"
    | .cursed => "Cursed"

namespace BuffKind

def word (k : BuffKind) : String := Vocabulary.word k

/-- Applying a stackable kind again adds its stacks. -/
def isStackable : BuffKind → Bool
  | .boostDmg | .increaseRes | .reduceRes | .fragile | .bleeding | .reduceAtk | .gifted => true
  | _ => false

/-- The good kinds survive cleansing. -/
def isPositive : BuffKind → Bool
  | .reduceRes | .fragile | .bleeding | .feared | .reduceAtk | .cursed => false
  | _ => true

end BuffKind

/-- How far to the left and to the right of a played card Swift reaches. -/
structure SwiftReach where
  left : Nat
  right : Nat
deriving DecidableEq

namespace SwiftReach

def nowhere : SwiftReach := ⟨0, 0⟩

def isEmpty (r : SwiftReach) : Bool := r.left = 0 && r.right = 0

end SwiftReach

/-- The kind of a buff together with the data of that kind. A resistance without an element is
one against all elements. -/
inductive BuffData where
  | guard
  | blessed (percent : Single)
  | lifesteel (percent : Single) (triggered : Bool)
  | reqChange (modifier : Int)
  | increaseDmg (percent : Single)
  | boostDmg (flat : Single)
  | increaseRes (element : Option Element) (percent : Int)
  | gifted
  | swift (reach : SwiftReach)
  | reduceRes (element : Option Element) (percent : Int)
  | fragile (percent : Single)
  | bleeding (percent : Single)
  | feared (accumulated : Int)
  | reduceAtk (percent : Single)
  | cursed
deriving DecidableEq

def BuffData.kind : BuffData → BuffKind
  | .guard => .guard
  | .blessed _ => .blessed
  | .lifesteel _ _ => .lifesteel
  | .reqChange _ => .reqChange
  | .increaseDmg _ => .increaseDmg
  | .boostDmg _ => .boostDmg
  | .increaseRes _ _ => .increaseRes
  | .gifted => .gifted
  | .swift _ => .swift
  | .reduceRes _ _ => .reduceRes
  | .fragile _ => .fragile
  | .bleeding _ => .bleeding
  | .feared _ => .feared
  | .reduceAtk _ => .reduceAtk
  | .cursed => .cursed

structure Buff where
  data : BuffData
  stack : Nat
  duration : Int
deriving DecidableEq

namespace Buff

def permanent : Int := -1

/-- A stackable buff has at least one stack, any other exactly one; a negative duration is
permanent. -/
def make (data : BuffData) (stack : Nat) (duration : Int) : Buff :=
  { data
    stack := if data.kind.isStackable then max stack 1 else 1
    duration := if duration < 0 then permanent else duration }

def kind (b : Buff) : BuffKind := b.data.kind

def isPermanent (b : Buff) : Bool := b.duration < 0

def isActive (b : Buff) : Bool := b.duration != 0

def expire (b : Buff) : Buff := { b with duration := 0 }

@[simp] theorem kind_expire (b : Buff) : b.expire.kind = b.kind := rfl

@[simp] theorem isActive_expire (b : Buff) : b.expire.isActive = false := rfl

@[simp] theorem kind_make (data : BuffData) (stack : Nat) (duration : Int) :
    (make data stack duration).kind = data.kind := rfl

theorem le_duration_make (data : BuffData) (stack : Nat) (duration : Int) :
    -1 ≤ (make data stack duration).duration := by
  simp only [make, permanent]
  split <;> omega

end Buff
end CardBattle
