import CardBattle.Buff.Basic

/-!
# CardBattle.Buff.Ledger

The buffs of one fighter: a list in the order of first application, with at most one entry of
each kind. Every fold walks it from the oldest entry to the newest. Inert entries stay in the
list until it is pruned and take part in no fold.

* `add`, `remove`, `cleanse`, `prune`: what enters and leaves the list.
* `outgoing`, `incoming`: the damage folds. A guard stops the first positive hit and expires.
* `record`, `drain`, `takeSwift`: the accumulator of fear and the buffs that work once.
* `turnStart`, `turnEnd`: the hooks at the owner's turn boundaries.
-/

namespace CardBattle

/-- What adding a buff did. -/
inductive Applied where
  | added
  | stacked (stack : Nat)
  | refreshed
deriving DecidableEq

/-- What a fighter suffers or gains at the end of a turn, and through which kind. -/
inductive Tick where
  | heal (source : BuffKind) (amount : Single)
  | damage (source : BuffKind) (amount : Single)
deriving DecidableEq

structure Ledger where
  entries : List Buff := []
deriving DecidableEq

namespace Ledger

instance : Inhabited Ledger := ⟨{}⟩

def hundred : Single := .finite 100

def one : Single := .finite 1

def stacksOf (b : Buff) : Single := Binary.ofInt b.stack

/-- The longer of two durations; permanent is the longest. -/
def longer (a b : Int) : Int := if a < 0 || b < 0 then Buff.permanent else max a b

/-- Applies a buff again to the entry of its kind. The entry keeps its data. -/
def merge (entry b : Buff) : Buff :=
  { entry with
    duration := longer entry.duration b.duration
    stack :=
      if b.kind.isStackable then Count.saturate (entry.stack + b.stack) else entry.stack }

/-- Merges a buff into the first entry of its kind. -/
def mergeInto (b : Buff) : List Buff → List Buff
  | [] => []
  | e :: es => if e.kind = b.kind then merge e b :: es else e :: mergeInto b es

def entry? (l : Ledger) (kind : BuffKind) : Option Buff :=
  l.entries.find? fun b => b.kind = kind

/-- A full list drops a new entry. -/
def add (l : Ledger) (b : Buff) : Applied × Ledger :=
  match l.entry? b.kind with
  | some e =>
    (if b.kind.isStackable then .stacked (merge e b).stack else .refreshed,
      ⟨mergeInto b l.entries⟩)
  | none =>
    (.added,
      if l.entries.length < Settings.maxBuffs then ⟨l.entries ++ [b]⟩ else l)

def remove (l : Ledger) (kind : BuffKind) : Option Buff × Ledger :=
  (l.entry? kind, ⟨l.entries.eraseP fun b => b.kind = kind⟩)

def active (l : Ledger) : List Buff := l.entries.filter Buff.isActive

/-- The active entry of a kind. -/
def get? (l : Ledger) (kind : BuffKind) : Option Buff :=
  l.entries.find? fun b => b.kind = kind && b.isActive

def has (l : Ledger) (kind : BuffKind) : Bool := (l.get? kind).isSome

def size (l : Ledger) : Nat := l.entries.length

def positiveCount (l : Ledger) : Nat := l.active.countP fun b => b.kind.isPositive

def negativeCount (l : Ledger) : Nat := l.active.countP fun b => !b.kind.isPositive

/-- Takes up to `count` bad entries out, oldest first, and lists their kinds. -/
def cleanseFrom : Nat → List Buff → List BuffKind × List Buff
  | _, [] => ([], [])
  | 0, bs => ([], bs)
  | count + 1, b :: bs =>
    if b.kind.isPositive then
      let (gone, kept) := cleanseFrom (count + 1) bs
      (gone, b :: kept)
    else
      let (gone, kept) := cleanseFrom count bs
      (b.kind :: gone, kept)

def cleanse (l : Ledger) (count : Nat) : List BuffKind × Ledger :=
  let (gone, kept) := cleanseFrom count l.entries
  (gone, ⟨kept⟩)

/-- Takes the inert entries out and lists their kinds. -/
def prune (l : Ledger) : List BuffKind × Ledger :=
  ((l.entries.filter fun b => !b.isActive).map Buff.kind, ⟨l.entries.filter Buff.isActive⟩)

/-- One step of the fold over outgoing damage. -/
def outgoingStep (amount : Single) (b : Buff) : Single :=
  match b.data with
  | .increaseDmg percent => amount * (one + percent / hundred)
  | .boostDmg flat => amount + flat * stacksOf b
  | .reduceAtk percent => (amount * (one - percent / hundred * stacksOf b)).floorAtZero
  | _ => amount

def outgoing (l : Ledger) (amount : Single) : Single := l.active.foldl outgoingStep amount

/-- One entry meets incoming damage: the damage behind it and what becomes of the entry. -/
def meet (b : Buff) (amount : Single) : Single × Buff :=
  if b.isActive then
    match b.data with
    | .fragile percent => (amount * (one + percent / hundred * stacksOf b), b)
    | .guard => if Binary.lt (.finite 0) amount then (.finite 0, b.expire) else (amount, b)
    | _ => (amount, b)
  else (amount, b)

def incomingFrom : List Buff → Single → Single × List Buff
  | [], amount => (amount, [])
  | b :: bs, amount =>
    let (behind, b) := meet b amount
    let (final, bs) := incomingFrom bs behind
    (final, b :: bs)

def incoming (l : Ledger) (amount : Single) : Single × Ledger :=
  let (final, entries) := incomingFrom l.entries amount
  (final, ⟨entries⟩)

/-- Feared remembers the hit points lost. -/
def recordIn (lost : Int) (b : Buff) : Buff :=
  match b.data with
  | .feared accumulated =>
    if b.isActive then { b with data := .feared (Amount.saturate (accumulated + lost)) } else b
  | _ => b

def record (l : Ledger) (lost : Int) : Ledger := ⟨l.entries.map (recordIn lost)⟩

/-- The percentage of an entry that still can drain life. -/
def drainable? (b : Buff) : Option Single :=
  match b.data with
  | .lifesteel percent false => if b.isActive then some percent else none
  | _ => none

/-- A drained entry is triggered and inert. -/
def drained (b : Buff) : Buff :=
  match b.data with
  | .lifesteel percent _ => { b with data := .lifesteel percent true, duration := 0 }
  | _ => b

def drainFrom : List Buff → Option Single × List Buff
  | [] => (none, [])
  | b :: bs =>
    match drainable? b with
    | some percent => (some percent, drained b :: bs)
    | none =>
      let (percent, bs) := drainFrom bs
      (percent, b :: bs)

/-- Uses up the first lifesteel and answers its percentage. -/
def drain (l : Ledger) : Option Single × Ledger :=
  let (percent, entries) := drainFrom l.entries
  (percent, ⟨entries⟩)

def reach? (b : Buff) : Option SwiftReach :=
  match b.data with
  | .swift reach => if b.isActive then some reach else none
  | _ => none

def takeSwiftFrom : List Buff → Option SwiftReach × List Buff
  | [] => (none, [])
  | b :: bs =>
    match reach? b with
    | some reach => (some reach, b.expire :: bs)
    | none =>
      let (reach, bs) := takeSwiftFrom bs
      (reach, b :: bs)

/-- Uses up the active swift and answers its reach. -/
def takeSwift (l : Ledger) : Option SwiftReach × Ledger :=
  let (reach, entries) := takeSwiftFrom l.entries
  (reach, ⟨entries⟩)

/-- An active entry at the owner's turn start: one turn less, and fear forgets. -/
def turnStarted (b : Buff) : Buff :=
  if b.isActive then
    { b with
      duration := if 0 < b.duration then b.duration - 1 else b.duration
      data :=
        match b.data with
        | .feared _ => .feared 0
        | d => d }
  else b

/-- Cards granted by the entries that are active before the turn starts. -/
def gifts (l : Ledger) : Nat :=
  l.active.foldl (fun n b => if b.kind = .gifted then Count.saturate (n + b.stack) else n) 0

/-- Cards to grant, kinds that ran out, and the list afterwards. -/
def turnStart (l : Ledger) : Nat × List BuffKind × Ledger :=
  (l.gifts, prune ⟨l.entries.map turnStarted⟩)

/-- What an entry does to its owner at the end of a turn. -/
def tick? (maxHp : Single) (b : Buff) : Option Tick :=
  match b.data with
  | .blessed percent => some (.heal .blessed (maxHp * percent / hundred))
  | .bleeding percent => some (.damage .bleeding (maxHp * percent / hundred * stacksOf b))
  | .feared accumulated =>
    if 0 < accumulated then some (.damage .feared (Binary.ofInt accumulated)) else none
  | _ => none

def turnEnd (l : Ledger) (maxHp : Int) : List Tick :=
  l.active.filterMap (tick? (Binary.ofInt maxHp))

def covers (scope : Option Element) (element : Element) : Bool :=
  match scope with
  | none => true
  | some e => e = element

/-- A percentage times the stacks, as an amount. -/
def scaled (b : Buff) (percent : Int) : Int :=
  Amount.saturate (percent * min Amount.greatest b.stack)

/-- What an entry adds to the resistance against an element. -/
def resistanceOf (element : Element) (b : Buff) : Int :=
  match b.data with
  | .increaseRes scope percent => if covers scope element then scaled b percent else 0
  | .reduceRes scope percent =>
    if covers scope element then Amount.saturate (-scaled b percent) else 0
  | _ => 0

def resistance (l : Ledger) (element : Element) : Int :=
  l.active.foldl (fun n b => Amount.saturate (n + resistanceOf element b)) 0

def modifier? (b : Buff) : Option Int :=
  match b.data with
  | .reqChange n => some n
  | _ => none

def requirementModifier (l : Ledger) : Int := (l.active.findSome? modifier?).getD 0

end Ledger
end CardBattle
