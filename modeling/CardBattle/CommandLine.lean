import CardBattle.Autoplay
import CardBattle.Battle.Setup
import CardBattle.Content.Assignments
import CardBattle.Content.Sample
import CardBattle.Content.Tables

/-!
# CardBattle.CommandLine

The command line of automatic play: one battle, played to its end or to the turn limit.

* `Arguments.read`: the options `--data`, `--seed`, `--deck`, `--enemy` and `--turn-limit`, each
  with its value behind it or behind a `=`. The first fault in the order of the arguments is
  answered; the value of an option counts as read when the next option begins, or at the end.
* `simulate`: the battle that the arguments ask for, from the sample or from two data files.
-/

namespace CardBattle
namespace CommandLine

inductive Flag where
  | data
  | seed
  | deck
  | enemy
  | turnLimit
deriving DecidableEq

instance : Vocabulary Flag where
  values := [.data, .seed, .deck, .enemy, .turnLimit]
  word
    | .data => "data"
    | .seed => "seed"
    | .deck => "deck"
    | .enemy => "enemy"
    | .turnLimit => "turn-limit"

structure Arguments where
  /-- The directory of the data files; the sample if there is none. -/
  data : Option String := none
  seed : Option Nat := none
  /-- Cards of the deck; the whole pool if there are none. -/
  deck : List String := []
  foes : List Foe := []
  turnLimit : Option Nat := none

inductive UsageFault where
  | missingEnemyId (text : String)
  | invalidHp (hp enemy : String)
  /-- Arguments that are refused before the text of an enemy is. -/
  | badArguments
deriving DecidableEq

/-- The message of a fault in the text of an enemy. -/
def UsageFault.message? : UsageFault → Option String
  | .missingEnemyId text => some ("missing enemy id in " ++ quoted text)
  | .invalidHp hp enemy =>
    some ("invalid HP override " ++ quoted hp ++ " for enemy " ++ quoted enemy)
  | .badArguments => none

/-- An enemy as `id` or `id:hp`, with hit points above 0. -/
def readFoe (text : List Char) : Except UsageFault Foe :=
  let text := Text.trim text
  let (id, hp) :=
    match Text.cut ':' text with
    | some (id, hp) => (Text.trim id, some (Text.trim hp))
    | none => (text, none)
  if id.isEmpty then .error (.missingEnemyId (String.ofList text))
  else
    match hp with
    | none => .ok { monsterId := String.ofList id }
    | some hp =>
      match Numeral.int32? hp with
      | none => .error (.invalidHp (String.ofList hp) (String.ofList id))
      | some n =>
        if 0 < n then .ok { monsterId := String.ofList id, hp := some n }
        else .error (.invalidHp (String.ofList hp) (String.ofList id))

namespace Arguments

/-- A limit is read as an integer and must be a count. -/
def limit? (value : List Char) : Option Nat :=
  match Numeral.int64? value with
  | none => none
  | some n => if 0 ≤ n && n ≤ Count.greatest then some n.toNat else none

/-- Gives an option its value. Only decks and enemies may be given again. -/
def assign (a : Arguments) (flag : Flag) (value : String) : Except UsageFault Arguments :=
  match flag with
  | .data =>
    if a.data.isSome || value.isEmpty then .error .badArguments
    else .ok { a with data := some value }
  | .seed =>
    match a.seed, Numeral.nat64? value.toList with
    | none, some n => .ok { a with seed := some n }
    | _, _ => .error .badArguments
  | .deck =>
    .ok { a with deck := a.deck ++ (Text.fields ',' value.toList).map String.ofList }
  | .enemy => (readFoe value.toList).map fun foe => { a with foes := a.foes ++ [foe] }
  | .turnLimit =>
    match a.turnLimit, limit? value.toList with
    | none, some n => .ok { a with turnLimit := some n }
    | _, _ => .error .badArguments

/-- An option that has begun, with its value if that has been seen. -/
abbrev Pending := Option (Flag × Option String)

def settle (a : Arguments) : Pending → Except UsageFault Arguments
  | none => .ok a
  | some (_, none) => .error .badArguments
  | some (flag, some value) => a.assign flag value

/-- What an argument is: an option, maybe with a value, the mark after which there are no
options, something else with a dash in front, or a value. -/
inductive Shape where
  | option (flag : Flag) (value : Option String)
  | endOfOptions
  | unknown
  | value

def shape (argument : List Char) : Shape :=
  match argument with
  | ['-', '-'] => .endOfOptions
  | '-' :: '-' :: body =>
    let (name, value) :=
      match Text.cut '=' body with
      | some (name, value) => (name, some (String.ofList value))
      | none => (body, none)
    match (Vocabulary.readExact? name : Option Flag) with
    | some flag => .option flag value
    | none => .unknown
  | '-' :: _ :: _ => .unknown
  | _ => .value

/-- Reads the arguments from the first to the last. -/
def readFrom : List String → Pending → Arguments → Except UsageFault Arguments
  | [], pending, a => a.settle pending
  | text :: rest, pending, a =>
    match shape text.toList with
    | .option flag none =>
      match a.settle pending with
      | .error e => .error e
      | .ok a => readFrom rest (some (flag, none)) a
    | .option flag (some value) =>
      match a.settle pending with
      | .error e => .error e
      | .ok a =>
        match a.assign flag value with
        | .error e => .error e
        | .ok a => readFrom rest none a
    | .endOfOptions => if rest.isEmpty then a.settle pending else .error .badArguments
    | .unknown => .error .badArguments
    | .value =>
      match pending with
      | some (flag, none) => readFrom rest (some (flag, some text)) a
      | _ => .error .badArguments

/-- There must be an enemy. -/
def read (arguments : List String) : Except UsageFault Arguments :=
  match readFrom arguments none {} with
  | .error e => .error e
  | .ok a => if a.foes.isEmpty then .error .badArguments else .ok a

end Arguments

/-- The contents of the two data files, as far as they can be read. -/
structure Files where
  settings : Option String
  tables : Option String

inductive LoadFault where
  | unreadable
  | malformed
deriving DecidableEq

def loadSettings (content : Option String) : Except LoadFault Settings :=
  match content with
  | none => .error .unreadable
  | some text =>
    match Settings.read? text with
    | none => .error .malformed
    | some s => .ok s

def loadCatalog (content : Option String) : Except LoadFault Catalog :=
  match content with
  | none => .error .unreadable
  | some text =>
    match Catalog.read? text with
    | none => .error .malformed
    | some c => .ok c

/-- The settings are loaded before the tables. -/
def load (files : Files) : Except LoadFault (Settings × Catalog) :=
  match loadSettings files.settings with
  | .error e => .error e
  | .ok s => (loadCatalog files.tables).map fun c => (s, c)

inductive Failure where
  | load (fault : LoadFault)
  | setup (fault : SetupFault)
  | rejected (rejection : Autoplay.Rejection)

/-- How a battle came to its end, or to the turn limit. -/
inductive Summary where
  | finished (outcome : Outcome) (report : Autoplay.Report)
  | stopped (turnLimit : Nat) (report : Autoplay.Report)

namespace Summary

def headline : Summary → String
  | .finished _ _ => "battle finished"
  | .stopped _ _ => "battle stopped at the turn limit"

/-- The numbers of a summary, as `name=value`. -/
def text : Summary → String
  | .finished outcome r =>
    "outcome=" ++ Vocabulary.word outcome ++ " turns=" ++ Numeral.text r.turns.toNat ++
      " cards_played=" ++ Numeral.text r.cardsPlayed.toNat ++ " player_hp=" ++
        Numeral.text r.playerHp
  | .stopped limit r =>
    "turn_limit=" ++ Numeral.text limit ++ " cards_played=" ++ Numeral.text r.cardsPlayed.toNat ++
      " player_hp=" ++ Numeral.text r.playerHp

end Summary

/-- Plays the battle of some settings and a catalog. -/
def playOut (a : Arguments) (s : Settings) (c : Catalog) : Except Failure Summary :=
  let limit := a.turnLimit.getD s.turnLimit
  let s := { s with turnLimit := limit }
  let deck := if a.deck.isEmpty then c.pool.map Card.id else a.deck
  match Battle.start c s (UInt64.ofNat (a.seed.getD 0)) deck a.foes with
  | .error e => .error (.setup e)
  | .ok b =>
    match Autoplay.run (UInt32.ofNat limit) b with
    | .error e => .error (.rejected e)
    | .ok (report, _) =>
      match report.outcome with
      | some outcome => .ok (.finished outcome report)
      | none => .ok (.stopped limit report)

/-- Runs the battle that the arguments ask for. The files count only if a directory is given. -/
def simulate (a : Arguments) (files : Files) : Except Failure Summary :=
  match a.data with
  | none => playOut a Sample.settings Sample.catalog
  | some _ =>
    match load files with
    | .error e => .error (.load e)
    | .ok (s, c) => playOut a s c

end CommandLine
end CardBattle
