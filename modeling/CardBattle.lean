import CardBattle.Main
import CardBattle.Binary.Interchange
import CardBattle.Binary.Shortest
import CardBattle.Proofs.LifeCycle
import CardBattle.Proofs.Table
import CardBattle.Proofs.View
import CardBattle.Proofs.Inert
import CardBattle.Proofs.Refusal
import CardBattle.Proofs.Echoing
import CardBattle.Proofs.EchoBound
import CardBattle.Proofs.Adjacency
import CardBattle.Proofs.Falls
import CardBattle.Proofs.KillFlag
import CardBattle.Proofs.Bystanders
import CardBattle.Proofs.Telegraph
import CardBattle.Proofs.Amounts
import CardBattle.Proofs.WellFormed
import CardBattle.Proofs.Quiet
import CardBattle.Proofs.Round
import CardBattle.Proofs.Aging
import CardBattle.Proofs.Punctual
import CardBattle.Proofs.Malformed
import CardBattle.Proofs.SelfPlay
import CardBattle.Proofs.Payments
import CardBattle.Proofs.Weights
import CardBattle.Proofs.Choice
import CardBattle.Proofs.Guarded
import CardBattle.Proofs.Volley
import CardBattle.Proofs.Reach
import CardBattle.Proofs.Keeping
import CardBattle.Proofs.Untouched
import CardBattle.Proofs.Collateral
import CardBattle.Proofs.SkillReach
import CardBattle.Proofs.Rounding
import CardBattle.Proofs.Roundtrip
import CardBattle.Proofs.SkillValues
import CardBattle.Proofs.Drawing
import CardBattle.Proofs.Picking
import CardBattle.Proofs.Neighbors
import CardBattle.Proofs.Stacking
import CardBattle.Proofs.Unspent
import CardBattle.Proofs.Swift
import CardBattle.Proofs.Lifetimes
import CardBattle.Proofs.Requirements
import CardBattle.Proofs.Opening
import CardBattle.Proofs.Accumulation
import CardBattle.Proofs.Directions
import CardBattle.Proofs.BuffTexts
import CardBattle.Proofs.EffectValues
import CardBattle.Proofs.BehaviorTexts
