import Agora.Host
import Agora.Lib.Int128
import Agora.Lib.Machine
import Mathlib.Logic.Function.Basic

/-!
# The pro-subscription contract

The records, the storage and the entry points of the contract that sells Pro
memberships (`types.rs`, `storage.rs`, `contract.rs`), and the contract as a
machine. The record of an organizer, the list of the Pro members and the
counter of the Pro subscriptions are three stores (`Roll`). The entry points
that look a subscription up may deactivate it, so they are calls too.
-/

namespace Agora.ProSubscription

open Lib Function

def secondsPerMonth : Nat := 30 * 24 * 60 * 60
def maxBps : Nat := 10000
def discountBps3Months : Nat := 500
def discountBps6Months : Nat := 1000
def discountBps12Months : Nat := 2000

inductive SubscriptionTier where
  | basic
  | pro
  deriving DecidableEq, Repr

structure Subscription where
  organizer : Address
  tier : SubscriptionTier
  startedAt : Nat
  expiresAt : Nat
  isActive : Bool
  amountPaid : Int
  paymentToken : Address
  deriving DecidableEq, Repr

inductive ProSubscriptionError where
  | alreadyInitialized | notInitialized | subscriptionNotFound | subscriptionExpired
  | invalidPrice | arithmeticError | invalidAddress | subscriptionAlreadyActive | sameAdmin
  deriving DecidableEq, Repr

/-- Why an invocation failed: an error of the contract, a panic, a missing signature or a
token's failure. -/
inductive Fault where
  | error (e : ProSubscriptionError)
  | panic (msg : String)
  | auth (who : Address)
  | token (f : TokenFault)
  deriving DecidableEq, Repr

abbrev Tx := Except Fault

/-- The context of a call: the ledger's time, who signed, and the token's own refusals. -/
structure Env where
  timestamp : Nat
  auth : Address → Bool
  refuses : Refusal

/-- The settings of the contract. -/
structure Settings where
  admin : Option Address
  initialized : Bool
  platformWallet : Option Address
  paymentToken : Option Address
  proMonthlyPrice : Int

/-- The subscriptions, the list of the Pro members and their counter. -/
structure Roll where
  subscription : Address → Option Subscription
  proMembersList : List Address
  totalProSubscriptions : Nat

/-- The state of the contract, with the token ledgers. -/
structure World where
  settings : Settings
  roll : Roll
  tokens : Tokens

/-- The storage of a contract that was just deployed. -/
def World.empty (tokens : Tokens) : World where
  settings := ⟨none, false, none, none, 0⟩
  roll := ⟨fun _ => none, [], 0⟩
  tokens := tokens

/-! ## Storage -/

namespace Roll

variable (r : Roll)

def setSubscription (s : Subscription) : Roll :=
  { r with subscription := update r.subscription s.organizer (some s) }

def addToProMembersList (organizer : Address) : Roll :=
  if organizer ∈ r.proMembersList then r
  else { r with proMembersList := r.proMembersList ++ [organizer] }

/-- The first occurrence goes. -/
def removeFromProMembersList (organizer : Address) : Roll :=
  { r with proMembersList := r.proMembersList.erase organizer }

def incrementTotalProSubscriptions : Tx Roll := do
  let count ← okOr (.panic "attempt to add with overflow")
    (checkedAddNat 32 r.totalProSubscriptions 1)
  return { r with totalProSubscriptions := count }

/-- `saturating_sub(1)`. -/
def decrementTotalProSubscriptions : Roll :=
  { r with totalProSubscriptions := r.totalProSubscriptions - 1 }

/-- The three writes of an expiry and of a cancellation. -/
def deactivate (organizer : Address) (s : Subscription) : Roll :=
  (r.setSubscription { s with isActive := false }).removeFromProMembersList organizer
    |>.decrementTotalProSubscriptions

/-- A Pro subscription past its end is deactivated as it is read. -/
def getSubscriptionWithExpiration (now : Nat) (organizer : Address) : Option Subscription × Roll :=
  match r.subscription organizer with
  | none => (none, r)
  | some s =>
    if s.tier = .pro ∧ s.isActive = true ∧ s.expiresAt ≤ now then
      (some { s with isActive := false }, r.deactivate organizer s)
    else (some s, r)

/-- What `is_pro_member` answers. -/
def isProMember (now : Nat) (organizer : Address) : Bool :=
  match (r.getSubscriptionWithExpiration now organizer).1 with
  | some s => s.isActive && decide (now < s.expiresAt)
  | none => false

end Roll

/-! ## Entry points -/

section EntryPoints

variable (self : Address) (env : Env) (w : World)

def Env.requireAuth (a : Address) : Tx Unit := ensure (env.auth a = true) (.auth a)

def requireAdmin : Tx Address := do
  let admin ← okOr (.error .notInitialized) w.settings.admin
  env.requireAuth admin
  return admin

/-- Not the contract itself. -/
def validateAddress (a : Address) : Tx Unit := ensure (a ≠ self) (.error .invalidAddress)

def tokenCall {α : Type} : Except TokenFault α → Tx α
  | .ok a => .ok a
  | .error f => .error (.token f)

/-- The price of `months` of Pro, with the discount for several months. -/
def calculateSubscriptionPrice (monthlyPrice : Int) (months : Nat) : Option Int :=
  let discountBps :=
    if 12 ≤ months then discountBps12Months
    else if 6 ≤ months then discountBps6Months
    else if 3 ≤ months then discountBps3Months
    else 0
  (checkedMul monthlyPrice months).bind fun v => mulDiv v ↑(maxBps - discountBps) maxBps

/-- `initialize`. -/
def initializeContract (admin platformWallet paymentToken : Address) (proMonthlyPrice : Int) :
    Tx World := do
  ensure (w.settings.initialized = false) (.error .alreadyInitialized)
  validateAddress self admin
  validateAddress self platformWallet
  validateAddress self paymentToken
  ensure (0 < proMonthlyPrice) (.error .invalidPrice)
  return { w with
    settings := ⟨some admin, true, some platformWallet, some paymentToken, proMonthlyPrice⟩ }

/-- The payment for `months`, as `subscribe_pro` and `renew_subscription` take it: the amount, the
token and the ledgers after the transfer. -/
def payForMonths (organizer : Address) (months : Nat) : Tx (Int × Address × Tokens) := do
  let totalAmount ← okOr (.error .arithmeticError)
    (calculateSubscriptionPrice w.settings.proMonthlyPrice months)
  let paymentToken ← okOr (.error .notInitialized) w.settings.paymentToken
  let platformWallet ← okOr (.error .notInitialized) w.settings.platformWallet
  let tokens ← tokenCall
    (w.tokens.transfer env.refuses paymentToken organizer platformWallet totalAmount)
  return (totalAmount, paymentToken, tokens)

/-- `base + SECONDS_PER_MONTH * months`. -/
def extendBy (base months : Nat) : Tx Nat := do
  let period ← okOr (.panic "attempt to multiply with overflow")
    (checkedMulNat 64 secondsPerMonth months)
  okOr (.error .arithmeticError) (checkedAddNat 64 base period)

def subscribePro (organizer : Address) (months : Nat) : Tx World := do
  ensure (w.settings.initialized = true) (.error .notInitialized)
  env.requireAuth organizer
  ensure (months ≠ 0) (.error .invalidPrice)
  let (existing, roll) := w.roll.getSubscriptionWithExpiration env.timestamp organizer
  ensure (∀ s ∈ existing, ¬ (s.isActive = true ∧ env.timestamp < s.expiresAt))
    (.error .subscriptionAlreadyActive)
  let (totalAmount, paymentToken, tokens) ← payForMonths env w organizer months
  let expiresAt ← extendBy env.timestamp months
  let subscription : Subscription :=
    { organizer
      tier := .pro
      startedAt := env.timestamp
      expiresAt
      isActive := true
      amountPaid := totalAmount
      paymentToken }
  let roll ← ((roll.setSubscription subscription).addToProMembersList
    organizer).incrementTotalProSubscriptions
  return { w with roll, tokens }

/-- The stored record is read as it is, expired or not, and the counter is left alone. -/
def renewSubscription (organizer : Address) (months : Nat) : Tx World := do
  ensure (w.settings.initialized = true) (.error .notInitialized)
  env.requireAuth organizer
  ensure (months ≠ 0) (.error .invalidPrice)
  let subscription ← okOr (.error .subscriptionNotFound) (w.roll.subscription organizer)
  let (totalAmount, _, tokens) ← payForMonths env w organizer months
  let baseTime :=
    if subscription.expiresAt < env.timestamp then env.timestamp else subscription.expiresAt
  let newExpiry ← extendBy baseTime months
  let amountPaid ← okOr (.error .arithmeticError) (checkedAdd subscription.amountPaid totalAmount)
  let subscription := { subscription with expiresAt := newExpiry, isActive := true, amountPaid }
  return { w with
    roll := (w.roll.setSubscription subscription).addToProMembersList organizer
    tokens }

/-- What both cancellations do once they are allowed. -/
def cancelFound (organizer : Address) (onlyPro : Bool) : Tx World := do
  let (found, roll) := w.roll.getSubscriptionWithExpiration env.timestamp organizer
  let subscription ← okOr (.error .subscriptionNotFound) found
  if subscription.isActive = false then return { w with roll }
  else do
    ensure (onlyPro = true → subscription.tier = .pro) (.error .subscriptionNotFound)
    return { w with roll := roll.deactivate organizer subscription }

/-- The admin cancels, whatever the tier. -/
def cancelSubscription (organizer : Address) : Tx World := do
  let _ ← requireAdmin env w
  cancelFound env w organizer false

def cancelMySubscription (organizer : Address) : Tx World := do
  ensure (w.settings.initialized = true) (.error .notInitialized)
  env.requireAuth organizer
  cancelFound env w organizer true

/-- `is_pro_member`, `get_subscription` and `get_subscription_expiry`: the look-up alone. -/
def lookUp (organizer : Address) : World :=
  { w with roll := (w.roll.getSubscriptionWithExpiration env.timestamp organizer).2 }

def registerBasic (organizer : Address) : Tx World := do
  ensure (w.settings.initialized = true) (.error .notInitialized)
  env.requireAuth organizer
  ensure (∀ s ∈ w.roll.subscription organizer, ¬ (s.tier = .pro ∧ s.isActive = true))
    (.error .subscriptionAlreadyActive)
  let subscription : Subscription :=
    { organizer
      tier := .basic
      startedAt := env.timestamp
      expiresAt := 0
      isActive := true
      amountPaid := 0
      paymentToken := w.settings.paymentToken.getD self }
  return { w with roll := w.roll.setSubscription subscription }

/-! ### Settings -/

def updateProPrice (newPrice : Int) : Tx World := do
  let _ ← requireAdmin env w
  ensure (0 < newPrice) (.error .invalidPrice)
  return { w with settings.proMonthlyPrice := newPrice }

def updateAdmin (newAdmin : Address) : Tx World := do
  let oldAdmin ← requireAdmin env w
  validateAddress self newAdmin
  ensure (newAdmin ≠ oldAdmin) (.error .sameAdmin)
  return { w with settings.admin := some newAdmin }

def updatePlatformWallet (newWallet : Address) : Tx World := do
  let _ ← requireAdmin env w
  validateAddress self newWallet
  let _ ← okOr (.error .notInitialized) w.settings.platformWallet
  return { w with settings.platformWallet := some newWallet }

def updatePaymentToken (newToken : Address) : Tx World := do
  let _ ← requireAdmin env w
  validateAddress self newToken
  let _ ← okOr (.error .notInitialized) w.settings.paymentToken
  return { w with settings.paymentToken := some newToken }

end EntryPoints

/-! ## The machine -/

/-- A call of one entry point with its arguments. -/
inductive Op where
  | initializeContract (admin platformWallet paymentToken : Address) (proMonthlyPrice : Int)
  | subscribePro (organizer : Address) (months : Nat)
  | renewSubscription (organizer : Address) (months : Nat)
  | cancelSubscription (organizer : Address)
  | cancelMySubscription (organizer : Address)
  | lookUp (organizer : Address)
  | registerBasic (organizer : Address)
  | updateProPrice (newPrice : Int)
  | updateAdmin (newAdmin : Address)
  | updatePlatformWallet (newWallet : Address)
  | updatePaymentToken (newToken : Address)

/-- The calls that leave the subscriptions alone. -/
def Op.isSetting : Op → Bool
  | .initializeContract .. | .updateProPrice _ | .updateAdmin _ | .updatePlatformWallet _
  | .updatePaymentToken _ => true
  | _ => false

/-- A step: a call in some context, or a change of the token ledgers made outside. -/
inductive Step where
  | call (env : Env) (op : Op)
  | outside (tokens : Tokens)

section Machine

variable (self : Address)

def call (env : Env) (w : World) : Op → Tx World
  | .initializeContract a p t m => initializeContract self w a p t m
  | .subscribePro o m => subscribePro env w o m
  | .renewSubscription o m => renewSubscription env w o m
  | .cancelSubscription o => cancelSubscription env w o
  | .cancelMySubscription o => cancelMySubscription env w o
  | .lookUp o => pure (lookUp env w o)
  | .registerBasic o => registerBasic self env w o
  | .updateProPrice p => updateProPrice env w p
  | .updateAdmin a => updateAdmin self env w a
  | .updatePlatformWallet a => updatePlatformWallet self env w a
  | .updatePaymentToken t => updatePaymentToken self env w t

def step (w : World) : Step → Tx World
  | .call env op => call self env w op
  | .outside tokens => pure { w with tokens }

/-- The contract was just deployed. -/
def Fresh (w : World) : Prop := ∃ tokens : Tokens, w = World.empty tokens

/-- The condition on a call; other steps meet it. -/
def OnCalls (C : World → Op → Prop) (w : World) : Step → Prop
  | .call _ op => C w op
  | .outside _ => True

end Machine

/-! ## What a call does to the roll -/

/-- The roll after a successful call at time `now`. -/
inductive Moves (now : Nat) (r : Roll) : Op → Roll → Prop where
  | subscribed {o token : Address} {months : Nat} {amount : Int} {r' : Roll}
      (free : ∀ s ∈ (r.getSubscriptionWithExpiration now o).1,
        ¬ (s.isActive = true ∧ now < s.expiresAt))
      (counted : (((r.getSubscriptionWithExpiration now o).2.setSubscription
        ⟨o, .pro, now, now + secondsPerMonth * months, true, amount, token⟩).addToProMembersList
          o).incrementTotalProSubscriptions = .ok r') :
      Moves now r (.subscribePro o months) r'
  | renewed {o : Address} {months : Nat} {s : Subscription} {amount : Int}
      (stored : r.subscription o = some s) :
      Moves now r (.renewSubscription o months)
        ((r.setSubscription
          { s with
            expiresAt := max s.expiresAt now + secondsPerMonth * months
            isActive := true
            amountPaid := amount }).addToProMembersList o)
  | cancelled {op : Op} {o : Address} {s : Subscription}
      (call : op = .cancelSubscription o ∨ op = .cancelMySubscription o ∧ s.tier = .pro)
      (found : (r.getSubscriptionWithExpiration now o).1 = some s) (active : s.isActive = true) :
      Moves now r op ((r.getSubscriptionWithExpiration now o).2.deactivate o s)
  | already {op : Op} {o : Address} {s : Subscription}
      (call : op = .cancelSubscription o ∨ op = .cancelMySubscription o)
      (found : (r.getSubscriptionWithExpiration now o).1 = some s) (idle : s.isActive = false) :
      Moves now r op (r.getSubscriptionWithExpiration now o).2
  | lookedUp {o : Address} : Moves now r (.lookUp o) (r.getSubscriptionWithExpiration now o).2
  | basic {o token : Address}
      (free : ∀ s ∈ r.subscription o, ¬ (s.tier = .pro ∧ s.isActive = true)) :
      Moves now r (.registerBasic o) (r.setSubscription ⟨o, .basic, now, 0, true, 0, token⟩)
  | kept {op : Op} (setting : op.isSetting = true) : Moves now r op r

section Inversion

variable {self : Address} {env : Env} {w w' : World} {o : Address} {months : Nat}

@[simp] theorem tokenCall_eq_ok {α : Type} {x : Except TokenFault α} {b : α} :
    tokenCall x = .ok b ↔ x = .ok b := by
  cases x <;> simp [tokenCall]

theorem extendBy_eq_ok {base t : Nat} (h : extendBy base months = .ok t) :
    t = base + secondsPerMonth * months := by
  simp only [extendBy, bind_eq_ok, okOr_eq_ok, checkedMulNat_eq_some, checkedAddNat_eq_some] at h
  obtain ⟨_, ⟨-, rfl⟩, -, rfl⟩ := h
  rfl

theorem subscribePro_moves (h : subscribePro env w o months = .ok w') :
    Moves env.timestamp w.roll (.subscribePro o months) w'.roll := by
  simp only [subscribePro, bind_eq_ok, ensure_eq_ok, pure_eq_ok] at h
  obtain ⟨_, -, _, -, _, -, _, hfree, ⟨amount, token, tokens⟩, -, t, ht, roll, hroll, rfl⟩ := h
  obtain rfl := extendBy_eq_ok ht
  exact .subscribed hfree hroll

theorem renewSubscription_moves (h : renewSubscription env w o months = .ok w') :
    Moves env.timestamp w.roll (.renewSubscription o months) w'.roll := by
  simp only [renewSubscription, bind_eq_ok, ensure_eq_ok, okOr_eq_ok, pure_eq_ok] at h
  obtain ⟨_, -, _, -, _, -, s, hs, ⟨amount, token, tokens⟩, -, t, ht, paid, -, rfl⟩ := h
  have hbase : (if s.expiresAt < env.timestamp then env.timestamp else s.expiresAt) =
      max s.expiresAt env.timestamp := by
    split <;> omega
  rw [hbase] at ht
  obtain rfl := extendBy_eq_ok ht
  exact .renewed hs

theorem cancelFound_moves {op : Op} {onlyPro : Bool}
    (hop : op = .cancelSubscription o ∨ op = .cancelMySubscription o ∧ onlyPro = true)
    (h : cancelFound env w o onlyPro = .ok w') : Moves env.timestamp w.roll op w'.roll := by
  simp only [cancelFound, bind_eq_ok, okOr_eq_ok] at h
  obtain ⟨s, hs, h⟩ := h
  split at h
  · rename_i hidle
    obtain rfl := pure_eq_ok.mp h
    exact .already (hop.imp_right And.left) hs hidle
  · rename_i hactive
    simp only [bind_eq_ok, ensure_eq_ok, pure_eq_ok] at h
    obtain ⟨_, hpro, rfl⟩ := h
    refine .cancelled (hop.imp_right ?_) hs (by simpa using hactive)
    rintro ⟨hcall, honly⟩
    exact ⟨hcall, hpro honly⟩

/-- **What a call does to the roll.** -/
theorem call_moves {op : Op} (h : call self env w op = .ok w') :
    Moves env.timestamp w.roll op w'.roll := by
  cases op with
  | subscribePro o m => exact subscribePro_moves h
  | renewSubscription o m => exact renewSubscription_moves h
  | cancelSubscription o =>
    simp only [call, cancelSubscription, bind_eq_ok] at h
    obtain ⟨_, -, h⟩ := h
    exact cancelFound_moves (.inl rfl) h
  | cancelMySubscription o =>
    simp only [call, cancelMySubscription, bind_eq_ok] at h
    obtain ⟨_, -, _, -, h⟩ := h
    exact cancelFound_moves (.inr ⟨rfl, rfl⟩) h
  | lookUp o =>
    obtain rfl := pure_eq_ok.mp h
    exact .lookedUp
  | registerBasic o =>
    simp only [call, registerBasic, bind_eq_ok, ensure_eq_ok, pure_eq_ok] at h
    obtain ⟨_, -, _, -, _, hfree, rfl⟩ := h
    exact .basic hfree
  | initializeContract a p t m =>
    simp only [call, initializeContract, bind_eq_ok, pure_eq_ok] at h
    obtain ⟨_, -, _, -, _, -, _, -, _, -, rfl⟩ := h
    exact .kept rfl
  | updateProPrice p =>
    simp only [call, updateProPrice, bind_eq_ok, pure_eq_ok] at h
    obtain ⟨_, -, _, -, rfl⟩ := h
    exact .kept rfl
  | updateAdmin a =>
    simp only [call, updateAdmin, bind_eq_ok, pure_eq_ok] at h
    obtain ⟨_, -, _, -, _, -, rfl⟩ := h
    exact .kept rfl
  | updatePlatformWallet a =>
    simp only [call, updatePlatformWallet, bind_eq_ok, pure_eq_ok] at h
    obtain ⟨_, -, _, -, _, -, rfl⟩ := h
    exact .kept rfl
  | updatePaymentToken t =>
    simp only [call, updatePaymentToken, bind_eq_ok, pure_eq_ok] at h
    obtain ⟨_, -, _, -, _, -, rfl⟩ := h
    exact .kept rfl

theorem step_cases {a : Step} (h : step self w a = .ok w') :
    (∃ env op, a = .call env op ∧ Moves env.timestamp w.roll op w'.roll) ∨
      (∃ tokens, a = .outside tokens) ∧ w'.roll = w.roll := by
  cases a with
  | call env op => exact .inl ⟨env, op, rfl, call_moves h⟩
  | outside tokens =>
    obtain rfl := pure_eq_ok.mp h
    exact .inr ⟨⟨tokens, rfl⟩, rfl⟩

end Inversion

/-! ## A small deployment -/

namespace Sample

def self : Address := ⟨"C-pro"⟩
def admin : Address := ⟨"G-admin"⟩
def wallet : Address := ⟨"G-platform"⟩
def alice : Address := ⟨"G-alice"⟩
def usdc : Address := ⟨"C-usdc"⟩

/-- A call that `signer` signed, at time `now`. -/
def signed (signer : Address) (now : Nat) (op : Op) : Step :=
  .call ⟨now, (· == signer), fun _ _ _ _ => false⟩ op

def deployed : World := World.empty ⟨fun _ _ => 1000000, fun _ _ _ => 0⟩

theorem deployed_fresh : Fresh deployed := ⟨_, rfl⟩

/-- The admin sets a price of 100 and alice subscribes for a month. -/
def subscribedRun : List Step :=
  [signed admin 0 (.initializeContract admin wallet usdc 100),
    signed alice 1000 (.subscribePro alice 1)]

/-- She renews before the end. -/
def renewedRun : List Step := subscribedRun ++ [signed alice 2000 (.renewSubscription alice 1)]

/-- The admin cancels her subscription and she renews it. -/
def revivedRun : List Step :=
  subscribedRun ++
    [signed admin 2000 (.cancelSubscription alice), signed alice 3000 (.renewSubscription alice 1)]

end Sample

end Agora.ProSubscription
