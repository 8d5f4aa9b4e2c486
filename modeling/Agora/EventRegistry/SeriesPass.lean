import Agora.EventRegistry.Frame
import Agora.EventRegistry.Recording
import Agora.Lib.Roster

/-!
# Series passes

A pass is checked by `has_valid_series_pass` and used by
`increment_series_pass_usage`. The check takes a limit of 0 for no limit and
refuses an expired pass; the use asks for a use below the limit and nothing
else. The check looks a pass up by its holder and does not see when its id was
issued again to another. The uses of a pass are counted until it is issued again.
-/

namespace Agora.EventRegistry

open Lib Function

variable {host : Host}

/-- What a successful call does to the series and the passes. -/
inductive Booked (env : Env host) (b : SeriesBook) : Op → SeriesBook → Prop where
  | idle {op : Op} (silent : op.books = false) : Booked env b op b
  | registered {s name : String} {events : List String} {o : Address} {cid : Option String}
      {series : String → Option SeriesRegistry} :
      Booked env b (.registerSeries s name events o cid) { b with series := series }
  | issued {p s : String} {h : Address} {limit expiresAt : Nat} :
      Booked env b (.issueSeriesPass p s h limit expiresAt)
        (b.storeSeriesPass ⟨p, s, h, limit, 0, env.timestamp, expiresAt⟩)
  | used {p : String} {pass : SeriesPass} (stored : b.seriesPass p = some pass)
      (left : pass.usageCount < pass.usageLimit) :
      Booked env b (.incrementSeriesPassUsage p)
        (b.storeSeriesPass { pass with usageCount := pass.usageCount + 1 })

/-- Every pass is stored under its id and within its limit. -/
structure SeriesBook.Sound (b : SeriesBook) : Prop where
  keyed : ∀ p pass, b.seriesPass p = some pass → pass.passId = p
  within : ∀ p pass, b.seriesPass p = some pass → pass.usageCount ≤ pass.usageLimit

/-- The expiry of the pass is over. -/
def SeriesPass.Expired (now : Nat) (pass : SeriesPass) : Prop :=
  0 < pass.expiresAt ∧ pass.expiresAt ≤ now

/-- The pass is the holder's, for the series. -/
def SeriesPass.HeldBy (holder : Address) (series : String) (pass : SeriesPass) : Prop :=
  pass.holder = holder ∧ pass.seriesId = series

instance {holder : Address} {series : String} {pass : SeriesPass} :
    Decidable (pass.HeldBy holder series) :=
  inferInstanceAs (Decidable (_ ∧ _))

/-- What the check needs of the pass it finds: of the holder's own, that it is
expired if it has no limit, and not if it has uses left; of one that was issued
again to another, that it is expired or used up. -/
def SeriesPass.Agrees (holder : Address) (series : String) (now : Nat) (pass : SeriesPass) : Prop :=
  if pass.HeldBy holder series then
    (pass.usageLimit = 0 → pass.Expired now) ∧
      (pass.usageCount < pass.usageLimit → ¬ pass.Expired now)
  else pass.Expired now ∨ (0 < pass.usageLimit ∧ pass.usageLimit ≤ pass.usageCount)

section Passes

variable {env : Env host} {w w' : World} {op : Op} {a : Step host} {b b' : SeriesBook} {p : String}
  {pass : SeriesPass} {holder : Address} {series : String} {steps : List (Step host)}

theorem SeriesBook.Sound.store (h : b.Sound) (hle : pass.usageCount ≤ pass.usageLimit) :
    (b.storeSeriesPass pass).Sound := by
  constructor <;> intro p q hq
  all_goals
    change update b.seriesPass pass.passId (some pass) p = some q at hq
    by_cases hp : p = pass.passId
    · subst hp
      rw [update_self] at hq
      cases hq
      first | rfl | exact hle
    · rw [update_of_ne hp] at hq
      first | exact h.keyed p q hq | exact h.within p q hq

theorem Booked.sound (h : b.Sound) (hb : Booked env b op b') : b'.Sound := by
  cases hb with
  | idle => exact h
  | registered => exact ⟨h.keyed, h.within⟩
  | issued => exact h.store (Nat.zero_le _)
  | used _ left => exact h.store left

theorem Fresh.sound (hw : Fresh host w) : w.seriesBook.Sound := by
  obtain ⟨_, -, rfl⟩ := hw
  exact ⟨nofun, nofun⟩

end Passes

namespace Sample

/-- Anyone uses it. -/
def use : Step node := byAlice (.incrementSeriesPassUsage "p1")

end Sample

end Agora.EventRegistry
