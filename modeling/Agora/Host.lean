import Agora.Lib.Tx
import Mathlib.Algebra.Group.Int.Defs

/-!
# The host

What the contracts see of the platform: addresses, the SHA-256 of the host,
and the SEP-41 token contracts. A token moves exactly the requested amount or
fails; beside the balance and the allowance it may fail for reasons of its own
(a frozen trustline, a refused recipient), which the caller's context decides.
-/

namespace Agora

open Lib

/-- An account or contract, by its strkey. -/
structure Address where
  strkey : String
  deriving DecidableEq, Repr, Inhabited

abbrev Bytes := List UInt8

abbrev Bytes32 := Vector UInt8 32

/-- The deployed contract's own address and the host's hash function. -/
structure Host where
  self : Address
  sha256 : Bytes → Bytes32

/-- The ledgers of all token contracts: `balance token holder` and
`allowance token owner spender`. -/
structure Tokens where
  balance : Address → Address → Int
  allowance : Address → Address → Address → Int

/-- Why a token call failed. -/
inductive TokenFault where
  | negativeAmount
  | balance
  | allowance
  | refused
  deriving DecidableEq, Repr

/-- A token's own reasons to fail: `refuses token src dst amount`. -/
abbrev Refusal := Address → Address → Address → Int → Bool

namespace Tokens

/-- Move `amount` of `token` from `src` to `dst`. -/
def move (tk : Tokens) (token src dst : Address) (amount : Int) : Tokens :=
  { tk with
    balance := fun t h =>
      if t = token then
        tk.balance t h - (if h = src then amount else 0) + (if h = dst then amount else 0)
      else tk.balance t h }

/-- Use up `amount` of an allowance. -/
def spend (tk : Tokens) (token owner spender : Address) (amount : Int) : Tokens :=
  { tk with
    allowance := fun t o s =>
      if t = token ∧ o = owner ∧ s = spender then tk.allowance t o s - amount
      else tk.allowance t o s }

/-- SEP-41 `transfer`. -/
def transfer (refuses : Refusal) (token src dst : Address) (amount : Int) (tk : Tokens) :
    Except TokenFault Tokens := do
  ensure (0 ≤ amount) .negativeAmount
  ensure (amount ≤ tk.balance token src) .balance
  ensure (refuses token src dst amount = false) .refused
  return tk.move token src dst amount

/-- SEP-41 `transfer_from`: as `transfer`, out of the allowance of `spender`. -/
def transferFrom (refuses : Refusal) (token spender src dst : Address) (amount : Int)
    (tk : Tokens) : Except TokenFault Tokens := do
  ensure (amount ≤ tk.allowance token src spender) .allowance
  let tk ← tk.transfer refuses token src dst amount
  return tk.spend token src spender amount

@[simp] theorem spend_balance (tk : Tokens) (token owner spender : Address) (amount : Int) :
    (tk.spend token owner spender amount).balance = tk.balance := rfl

theorem move_balance (tk : Tokens) (token src dst : Address) (amount : Int) (t h : Address) :
    (tk.move token src dst amount).balance t h =
      tk.balance t h - (if t = token ∧ h = src then amount else 0) +
        (if t = token ∧ h = dst then amount else 0) := by
  by_cases ht : t = token <;> simp [move, ht]

@[simp] theorem move_zero (tk : Tokens) (token src dst : Address) :
    tk.move token src dst 0 = tk := by
  simp [move]

theorem transfer_eq_ok {refuses : Refusal} {token src dst : Address} {amount : Int}
    {tk tk' : Tokens} : tk.transfer refuses token src dst amount = .ok tk' ↔
      0 ≤ amount ∧ amount ≤ tk.balance token src ∧ refuses token src dst amount = false ∧
        tk' = tk.move token src dst amount := by
  simp only [transfer, bind_eq_ok, ensure_eq_ok, pure_eq_ok]
  constructor
  · rintro ⟨_, h0, _, hb, _, hr, rfl⟩
    exact ⟨h0, hb, hr, rfl⟩
  · rintro ⟨h0, hb, hr, rfl⟩
    exact ⟨(), h0, (), hb, (), hr, rfl⟩

theorem transferFrom_eq_ok {refuses : Refusal} {token spender src dst : Address} {amount : Int}
    {tk tk' : Tokens} : tk.transferFrom refuses token spender src dst amount = .ok tk' ↔
      amount ≤ tk.allowance token src spender ∧ 0 ≤ amount ∧ amount ≤ tk.balance token src ∧
        refuses token src dst amount = false ∧
        tk' = (tk.move token src dst amount).spend token src spender amount := by
  simp only [transferFrom, bind_eq_ok, ensure_eq_ok, transfer_eq_ok, pure_eq_ok]
  constructor
  · rintro ⟨_, ha, _, ⟨h0, hb, hr, rfl⟩, rfl⟩
    exact ⟨ha, h0, hb, hr, rfl⟩
  · rintro ⟨ha, h0, hb, hr, rfl⟩
    exact ⟨(), ha, _, ⟨h0, hb, hr, rfl⟩, rfl⟩

end Tokens

end Agora
