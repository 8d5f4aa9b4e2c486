import Agora.Lib.TokenBucket
import Agora.Lib.ZSet
import Mathlib.Data.Rat.Floor
import Mathlib.Data.String.Basic

/-!
# The keys of an event and the admission script

`services/queue.rs`: the waiting room of an event is a few Redis keys. The
script `ADMIT_LUA` refills the token bucket of the event and pops the head of
its queue in one command. Tokens are rationals here, times are milliseconds.
-/

namespace Agora.WaitingRoom

open Lib

/-- The bucket hash. -/
structure Bucket where
  tokens : ℚ
  lastRefill : Int
  deriving DecidableEq

/-- Client ids by sequence number. -/
abbrev Queue := ZSet Nat String

/-- `ZRANGE 0 stop`; a negative index counts from the end. -/
def zrange (queue : Queue) (stop : Int) : List String :=
  queue.first ((if stop < 0 then queue.card + stop else stop) + 1).toNat

/-- `ADMIT_LUA`: the admitted clients, and the keys after the call. -/
def admitLua (bucket : Option Bucket) (queue : Queue) (now : Int) (refillPerSec capacity : ℚ)
    (maxAdmit : Int) : List String × Bucket × Queue :=
  let tokens := (bucket.map (·.tokens)).getD 0
  let last := (bucket.map (·.lastRefill)).getD now
  let elapsed : ℚ := (now - last) / 1000
  let tokens := tokens + elapsed * refillPerSec
  let tokens := if capacity < tokens then capacity else tokens
  if tokens < 1 then ([], ⟨tokens, now⟩, queue)
  else
    let take := min ⌊tokens⌋ maxAdmit
    let members := zrange queue (take - 1)
    (members, ⟨tokens - members.length, now⟩,
      if 0 < members.length then queue.remove members else queue)

def defaultAdmissionRatePerMinute : Nat := 60

/-- The keys of an event. -/
structure EventKeys where
  seq : Nat
  queue : Queue
  bucket : Option Bucket
  config : Option Nat
  grants : String → Option String

namespace EventKeys

variable (keys : EventKeys)

def new : EventKeys := ⟨0, ZSet.empty, none, none, fun _ => none⟩

/-- The configured rate, or the default. -/
def ratePerMinute : Nat := keys.config.getD defaultAdmissionRatePerMinute

/-- `ZADD NX`. -/
def zadd (seq : Nat) (client : String) : EventKeys :=
  { keys with queue := keys.queue.addNX seq client }

/-- The `EVAL` of `admit_for_event`, which is not sent at rate 0. -/
def eval (rate : Nat) (now : Int) : List String × EventKeys :=
  if rate = 0 then ([], keys)
  else
    let refillPerSec : ℚ := rate / 60
    let capacity : ℚ := rate
    let maxAdmit : Int := ⌈capacity⌉
    let (admitted, bucket, queue) :=
      admitLua keys.bucket keys.queue now refillPerSec capacity maxAdmit
    (admitted, { keys with bucket := some bucket, queue })

end EventKeys

/-! ## What a call does -/

/-- The bucket in seconds. -/
def Bucket.toTokenBucket (b : Bucket) : TokenBucket ℚ := ⟨b.tokens, b.lastRefill / 1000⟩

namespace EventKeys

variable (keys : EventKeys) (rate : Nat) (now : Int)

/-- The bucket a call starts from. -/
def held : Bucket := keys.bucket.getD ⟨0, now⟩

/-- The tokens that a call finds after the refill. -/
def found : ℚ := (keys.held now).toTokenBucket.found (rate / 60) rate (now / 1000)

theorem found_le : keys.found rate now ≤ rate := min_le_left _ _

theorem floor_found_le : ⌊keys.found rate now⌋.toNat ≤ rate := by
  have hle : ⌊keys.found rate now⌋ ≤ rate := by
    exact_mod_cast (Int.floor_le _).trans (keys.found_le rate now)
  omega

theorem eval_zero : keys.eval 0 now = ([], keys) := if_pos rfl

/-- **What the script does**: it admits as many clients as it finds whole tokens. -/
theorem admitLua_eq (bucket : Option Bucket) (queue : Queue) (now : Int)
    (refillPerSec capacity : ℚ) (maxAdmit : Int) (hmax : capacity ≤ maxAdmit) :
    let found := (bucket.getD ⟨0, now⟩).toTokenBucket.found refillPerSec capacity (now / 1000)
    admitLua bucket queue now refillPerSec capacity maxAdmit =
      (queue.first ⌊found⌋.toNat, ⟨found - (queue.first ⌊found⌋.toNat).length, now⟩,
        queue.remove (queue.first ⌊found⌋.toNat)) := by
  intro found
  have htokens : (if capacity < (bucket.map (·.tokens)).getD 0 +
        ((now : ℚ) - (bucket.map (·.lastRefill)).getD now) / 1000 * refillPerSec then capacity
      else (bucket.map (·.tokens)).getD 0 +
        ((now : ℚ) - (bucket.map (·.lastRefill)).getD now) / 1000 * refillPerSec) = found := by
    rw [← min_def_lt]
    cases bucket <;> simp [found, TokenBucket.found, Bucket.toTokenBucket, sub_div]
  simp only [admitLua, htokens]
  by_cases hfew : found < 1
  · have hfloor : ⌊found⌋.toNat = 0 := by
      have : ⌊found⌋ < 1 := Int.floor_lt.mpr (by simpa using hfew)
      omega
    rw [if_pos hfew, hfloor]
    simp [ZSet.remove_nil]
  · have hone : 1 ≤ ⌊found⌋ := Int.le_floor.mpr (by simpa using not_lt.mp hfew)
    have hle : found ≤ maxAdmit := (min_le_left _ _).trans hmax
    have htake : min ⌊found⌋ maxAdmit = ⌊found⌋ := by
      refine min_eq_left ?_
      exact_mod_cast (Int.floor_le found).trans hle
    have hrange : zrange queue (min ⌊found⌋ maxAdmit - 1) = queue.first ⌊found⌋.toNat := by
      rw [zrange, htake, if_neg (by omega), sub_add_cancel]
    rw [if_neg hfew, hrange]
    congr 2
    split_ifs with hsome
    · rfl
    · rw [List.eq_nil_of_length_eq_zero (not_lt.mp hsome |> Nat.le_zero.mp), ZSet.remove_nil]

/-- **What a call does.** -/
theorem eval_eq (hrate : 0 < rate) :
    keys.eval rate now =
      (keys.queue.first ⌊keys.found rate now⌋.toNat,
        { keys with
          bucket := some ⟨keys.found rate now -
            (keys.queue.first ⌊keys.found rate now⌋.toNat).length, now⟩
          queue := keys.queue.remove (keys.queue.first ⌊keys.found rate now⌋.toNat) }) := by
  rw [eval, if_neg hrate.ne']
  simp only [admitLua_eq _ _ _ _ _ _ (Int.le_ceil _)]
  rfl

theorem eval_fst :
    (keys.eval rate now).1 = keys.queue.first ⌊keys.found rate now⌋.toNat := by
  rcases Nat.eq_zero_or_pos rate with rfl | hrate
  · have := keys.floor_found_le 0 now
    rw [eval_zero, Nat.le_zero.mp this, ZSet.first_zero]
  · rw [keys.eval_eq rate now hrate]

end EventKeys

end Agora.WaitingRoom
