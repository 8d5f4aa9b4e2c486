import Agora.TicketPayment.Contract

/-!
# Dutch auctions

The commit-reveal purchase of `auction.rs` with its storage. A buyer commits to
a hash while the auction price is noted with it, and reveals the secret within
five minutes; the pending commit is taken out by the reveal. The functions are
called inside an invocation that is rolled back when they fail. Between the
calls anyone may reconfigure an auction, and the host drops a pending commit,
which lies in temporary storage, when its time-to-live is over (`lapse`).

`Opens hist m n` says that step `n` of a history is a reveal and step `m` the
last commit of the same buyer for the same tier before it. `Answered` relates
the stored commits to the history: what is pending was committed and not
touched since.
-/

namespace Agora.TicketPayment

open Lib Function

variable {host : Host}

/-- A pending commit of the commit-reveal scheme. -/
structure PendingCommit where
  hash : Bytes32
  expiresAt : Nat
  committedPrice : Int
  maxSlippageBps : Nat
  deriving DecidableEq

structure DutchAuctionConfig where
  startPrice : Int
  reservePrice : Int
  startTime : Nat
  endTime : Nat
  exponential : Bool
  deriving DecidableEq, Repr

def commitExpirySecs : Nat := 300

/-- A tier of an event, and a buyer who commits to it. -/
abbrev CommitKey := String × String × Address

/-- The stored auctions and pending commits. -/
structure DutchAuctions where
  dutchAuction : String × String → Option DutchAuctionConfig
  pendingCommit : CommitKey → Option PendingCommit

/-- No auction was ever configured. -/
def DutchAuctions.empty : DutchAuctions := ⟨fun _ => none, fun _ => none⟩

def DutchAuctions.setDutchAuction (d : DutchAuctions) (eventId tierId : String)
    (cfg : DutchAuctionConfig) : DutchAuctions :=
  { d with dutchAuction := update d.dutchAuction (eventId, tierId) (some cfg) }

def DutchAuctions.setPendingCommit (d : DutchAuctions) (key : CommitKey) (c : PendingCommit) :
    DutchAuctions :=
  { d with pendingCommit := update d.pendingCommit key (some c) }

def DutchAuctions.removePendingCommit (d : DutchAuctions) (key : CommitKey) : DutchAuctions :=
  { d with pendingCommit := update d.pendingCommit key none }

/-! ## Prices -/

/-- Linear decay. The machine subtracts the times only where that is safe. -/
def currentDutchPriceLinear (cfg : DutchAuctionConfig) (now : Nat) : Tx Int :=
  if cfg.endTime ≤ now then pure cfg.reservePrice
  else if now ≤ cfg.startTime then pure cfg.startPrice
  else do
    let elapsed : Int := (now - cfg.startTime : Nat)
    let total : Int := (cfg.endTime - cfg.startTime : Nat)
    let spread ← arith (checkedSub cfg.startPrice cfg.reservePrice)
    let product ← arith (checkedMul elapsed spread)
    let drop ← arith (checkedDiv product total)
    arith (checkedSub cfg.startPrice drop)

def dutchScale : Int := 1000000

/-- The decay `2f - f²` for the share `f` of the time that remains. -/
def currentDutchPriceExponential (cfg : DutchAuctionConfig) (now : Nat) : Tx Int :=
  if cfg.endTime ≤ now then pure cfg.reservePrice
  else if now ≤ cfg.startTime then pure cfg.startPrice
  else do
    let elapsed : Int := (now - cfg.startTime : Nat)
    let total : Int := (cfg.endTime - cfg.startTime : Nat)
    let remaining ← arith (checkedSub total elapsed)
    let scaled ← arith (checkedMul remaining dutchScale)
    let f ← arith (checkedDiv scaled total)
    let double ← arith (checkedMul 2 f)
    let square ← arith (checkedMul f f)
    let part ← arith (checkedDiv square dutchScale)
    let factor ← arith (checkedSub double part)
    let spread ← arith (checkedSub cfg.startPrice cfg.reservePrice)
    let product ← arith (checkedMul spread factor)
    let above ← arith (checkedDiv product dutchScale)
    arith (checkedAdd cfg.reservePrice above)

def currentDutchPrice (cfg : DutchAuctionConfig) (now : Nat) : Tx Int :=
  if cfg.exponential then currentDutchPriceExponential cfg now
  else currentDutchPriceLinear cfg now

/-! ## The commit hash -/

/-- The 16 bytes of an `i128` in two's complement, least significant first. -/
def i128ToLeBytes (value : Int) : Bytes :=
  (List.range 16).map fun k => UInt8.ofNat ((value % 2 ^ 128).toNat / 256 ^ k)

/-- The secret, the buyer's XDR (`toXdr` of the host) and the price. -/
def commitPreimage (toXdr : Address → Bytes) (secret : Bytes) (buyer : Address)
    (priceStroops : Int) : Bytes :=
  secret ++ toXdr buyer ++ i128ToLeBytes priceStroops

def buildCommitHash (host : Host) (toXdr : Address → Bytes) (secret : Bytes) (buyer : Address)
    (priceStroops : Int) : Bytes32 :=
  host.sha256 (commitPreimage toXdr secret buyer priceStroops)

/-! ## The two phases -/

def commitPurchase (env : Env host) (d : DutchAuctions) (eventId tierId : String)
    (buyer : Address) (commitHash : Bytes32) (maxSlippageBps : Nat) :
    Tx (Int × DutchAuctions) := do
  requireAuth env buyer
  ensure (maxSlippageBps ≤ maxBps) (.error .invalidSlippageBps)
  let cfg ← okOr (.error .auctionNotActive) (d.dutchAuction (eventId, tierId))
  ensure (env.timestamp < cfg.endTime) (.error .auctionEnded)
  ensure (cfg.startTime ≤ env.timestamp) (.error .auctionNotActive)
  let committedPrice ← currentDutchPrice cfg env.timestamp
  let expiresAt ← arith (checkedAddNat 64 env.timestamp commitExpirySecs)
  let commit : PendingCommit := ⟨commitHash, expiresAt, committedPrice, maxSlippageBps⟩
  return (committedPrice, d.setPendingCommit (eventId, tierId, buyer) commit)

def revealPurchase (env : Env host) (toXdr : Address → Bytes) (d : DutchAuctions)
    (eventId tierId : String) (buyer : Address) (secret : Bytes) (priceStroops : Int) :
    Tx (Int × DutchAuctions) := do
  requireAuth env buyer
  let commit ← okOr (.error .invalidSecret) (d.pendingCommit (eventId, tierId, buyer))
  let d := d.removePendingCommit (eventId, tierId, buyer)
  ensure (env.timestamp ≤ commit.expiresAt) (.error .commitExpired)
  ensure (buildCommitHash host toXdr secret buyer priceStroops = commit.hash)
    (.error .invalidSecret)
  ensure (priceStroops = commit.committedPrice) (.error .priceMismatch)
  let cfg ← okOr (.error .auctionNotActive) (d.dutchAuction (eventId, tierId))
  let currentPrice ← currentDutchPrice cfg env.timestamp
  let tolerance ← arith (checkedMul commit.committedPrice commit.maxSlippageBps)
  let margin ← arith (checkedDiv tolerance maxBps)
  let ceiling ← arith (checkedAdd commit.committedPrice margin)
  ensure (currentPrice ≤ ceiling) (.error .priceOutsideSlippage)
  return (min currentPrice commit.committedPrice, d)

/-- A step of the commit-reveal system. -/
inductive DutchStep (host : Host) where
  | configure (eventId tierId : String) (cfg : DutchAuctionConfig)
  | commit (env : Env host) (eventId tierId : String) (buyer : Address) (commitHash : Bytes32)
      (maxSlippageBps : Nat)
  | reveal (env : Env host) (eventId tierId : String) (buyer : Address) (secret : Bytes)
      (priceStroops : Int)
  | lapse (eventId tierId : String) (buyer : Address)

def dutchStep (toXdr : Address → Bytes) (d : DutchAuctions) : DutchStep host → Tx DutchAuctions
  | .configure e t cfg => pure (d.setDutchAuction e t cfg)
  | .commit env e t b h m => Prod.snd <$> commitPurchase env d e t b h m
  | .reveal env e t b s p => Prod.snd <$> revealPurchase env toXdr d e t b s p
  | .lapse e t b => pure (d.removePendingCommit (e, t, b))

/-! ## What a successful call did -/

section Inversion

variable {env : Env host} {toXdr : Address → Bytes} {d d' : DutchAuctions} {e t : String}
  {b : Address}

theorem commitPurchase_eq_ok {h : Bytes32} {slippage : Nat} {price : Int}
    (hok : commitPurchase env d e t b h slippage = .ok (price, d')) :
    d' = d.setPendingCommit (e, t, b) ⟨h, env.timestamp + commitExpirySecs, price, slippage⟩ := by
  simp only [commitPurchase, bind_eq_ok, arith_eq_ok, checkedAddNat_eq_some, pure_eq_ok,
    Prod.mk.injEq] at hok
  obtain ⟨_, -, _, -, cfg, -, _, -, _, -, _, -, _, ⟨-, rfl⟩, rfl, rfl⟩ := hok
  rfl

/-- What a reveal checks, and what it approves. -/
structure Reveals (env : Env host) (toXdr : Address → Bytes) (d : DutchAuctions) (e t : String)
    (b : Address) (secret : Bytes) (price : Int) (c : PendingCommit) (approved : Int) : Prop where
  pending : d.pendingCommit (e, t, b) = some c
  intime : env.timestamp ≤ c.expiresAt
  hash : buildCommitHash host toXdr secret b price = c.hash
  price : price = c.committedPrice
  approved : ∃ cfg current, d.dutchAuction (e, t) = some cfg ∧
    currentDutchPrice cfg env.timestamp = .ok current ∧
    approved = min current c.committedPrice

theorem revealPurchase_eq_ok {secret : Bytes} {price approved : Int}
    (hok : revealPurchase env toXdr d e t b secret price = .ok (approved, d')) :
    d' = d.removePendingCommit (e, t, b) ∧
      ∃ c, Reveals env toXdr d e t b secret price c approved := by
  simp only [revealPurchase, bind_eq_ok, ensure_eq_ok, okOr_eq_ok, pure_eq_ok,
    Prod.mk.injEq] at hok
  obtain ⟨_, -, c, hc, _, hin, _, hh, _, hp, cfg, hcfg, current, hcur, _, -, _, -, _, -, _, -,
    happ, rfl⟩ := hok
  exact ⟨rfl, c, hc, hin, hh, hp, cfg, current, hcfg, hcur, happ.symm⟩

end Inversion

/-! ## The hash binds the price -/

theorem length_i128ToLeBytes (value : Int) : (i128ToLeBytes value).length = 16 := by
  simp [i128ToLeBytes]

/-- Base 256 digits determine a number below `256 ^ n`. -/
theorem eq_of_digits {n : Nat} {x y : Nat} (hx : x < 256 ^ n) (hy : y < 256 ^ n)
    (h : ∀ k < n, x / 256 ^ k % 256 = y / 256 ^ k % 256) : x = y := by
  induction n generalizing x y with
  | zero => omega
  | succ n ih =>
    have hlow : x % 256 = y % 256 := by simpa using h 0 (by omega)
    have hhigh : x / 256 = y / 256 := by
      refine ih ?_ ?_ fun k hk => ?_
      · rw [Nat.pow_succ] at hx
        omega
      · rw [Nat.pow_succ] at hy
        omega
      · have hk' := h (k + 1) (by omega)
        rwa [Nat.pow_succ', ← Nat.div_div_eq_div_mul, ← Nat.div_div_eq_div_mul] at hk'
    omega

theorem i128ToLeBytes_inj {p q : Int} (hp : Fits p) (hq : Fits q)
    (h : i128ToLeBytes p = i128ToLeBytes q) : p = q := by
  have hdigits : ∀ k < 16, (p % 2 ^ 128).toNat / 256 ^ k % 256 =
      (q % 2 ^ 128).toNat / 256 ^ k % 256 := by
    intro k hk
    have hbyte := List.map_inj_left.mp h k (List.mem_range.mpr hk)
    simpa using congrArg UInt8.toNat hbyte
  have heq := eq_of_digits (n := 16) (by omega) (by omega) hdigits
  unfold Fits at hp hq
  omega

/-- Two preimages of one buyer are equal only for one secret and one price. -/
theorem commitPreimage_inj {toXdr : Address → Bytes} {secret secret' : Bytes} {b : Address}
    {p q : Int} (hp : Fits p) (hq : Fits q)
    (h : commitPreimage toXdr secret b p = commitPreimage toXdr secret' b q) :
    secret = secret' ∧ p = q := by
  unfold commitPreimage at h
  have hlen : (i128ToLeBytes p).length = (i128ToLeBytes q).length := by
    rw [length_i128ToLeBytes, length_i128ToLeBytes]
  obtain ⟨hfront, hback⟩ := List.append_inj' h hlen
  exact ⟨List.append_cancel_right hfront, i128ToLeBytes_inj hp hq hback⟩

/-! ## Whole runs -/

section Runs

variable {toXdr : Address → Bytes} {key : CommitKey} {d d' : DutchAuctions}

/-- The step commits for the buyer and the tier. -/
def DutchStep.commitsFor (key : CommitKey) : DutchStep host → Bool
  | .commit _ e t b _ _ => (e, t, b) == key
  | _ => false

/-- The step reveals for the buyer and the tier. -/
def DutchStep.revealsFor (key : CommitKey) : DutchStep host → Bool
  | .reveal _ e t b _ _ => (e, t, b) == key
  | _ => false

abbrev DutchHistory (host : Host) := List (DutchAuctions × DutchStep host × DutchAuctions)

/-- Step `n` is a reveal, and step `m` is the last commit of its buyer for its
tier before it. -/
structure Opens (hist : DutchHistory host) (m n : Nat) (key : CommitKey) : Prop where
  before : m < n
  commits : ∃ x, hist[m]? = some x ∧ x.2.1.commitsFor key = true
  reveals : ∃ x, hist[n]? = some x ∧ x.2.1.revealsFor key = true
  last : ∀ j x, m < j → j < n → hist[j]? = some x → x.2.1.commitsFor key = false

/-- Step `m` noted the commit `c`, for the price it returned. -/
def Notes (hist : DutchHistory host) (m : Nat) (key : CommitKey) (c : PendingCommit) : Prop :=
  ∃ s s' env price, hist[m]? =
      some (s, .commit env key.1 key.2.1 key.2.2 c.hash c.maxSlippageBps, s') ∧
    commitPurchase env s key.1 key.2.1 key.2.2 c.hash c.maxSlippageBps = .ok (price, s') ∧
    c.expiresAt = env.timestamp + commitExpirySecs ∧ c.committedPrice = price

/-- No step after the first `m + 1`, and before step `n`, is about the key. -/
def Untouched (hist : DutchHistory host) (m n : Nat) (key : CommitKey) : Prop :=
  ∀ j x, m < j → j < n → hist[j]? = some x →
    x.2.1.commitsFor key = false ∧ x.2.1.revealsFor key = false

/-- What is pending was committed and not touched since, and every reveal
answered such a commit. -/
structure Answered (toXdr : Address → Bytes) (d : DutchAuctions) (hist : DutchHistory host) :
    Prop where
  pending : ∀ key c, d.pendingCommit key = some c →
    ∃ m, Notes hist m key c ∧ Untouched hist m hist.length key
  reveals : ∀ n s s' env e t b secret price,
    hist[n]? = some (s, .reveal env e t b secret price, s') →
    ∃ m c approved, m < n ∧ Notes hist m (e, t, b) c ∧ Untouched hist m n (e, t, b) ∧
      revealPurchase env toXdr s e t b secret price = .ok (approved, s') ∧
      Reveals env toXdr s e t b secret price c approved

variable {hist : DutchHistory host} {c : PendingCommit} {m n : Nat}

theorem Notes.lt (h : Notes hist m key c) : m < hist.length := by
  obtain ⟨_, _, _, _, hm, -⟩ := h
  exact (List.getElem?_eq_some_iff.mp hm).1

theorem Notes.concat (h : Notes hist m key c) (x : DutchAuctions × DutchStep host × DutchAuctions) :
    Notes (hist ++ [x]) m key c := by
  have hlt := h.lt
  unfold Notes
  rwa [List.getElem?_append_left hlt]

/-- A further step leaves the key untouched if it is not about it. -/
theorem Untouched.concat {x : DutchAuctions × DutchStep host × DutchAuctions}
    (h : Untouched hist m hist.length key) (hc : x.2.1.commitsFor key = false)
    (hr : x.2.1.revealsFor key = false) :
    Untouched (hist ++ [x]) m (hist ++ [x]).length key := by
  intro j y hm hj hy
  rw [List.length_append, List.length_singleton] at hj
  rcases Nat.lt_or_ge j hist.length with hlt | hge
  · rw [List.getElem?_append_left hlt] at hy
    exact h j y hm hlt hy
  · have hj' : j = hist.length := by omega
    rw [hj', List.getElem?_concat_length, Option.some.injEq] at hy
    exact hy ▸ ⟨hc, hr⟩

theorem Untouched.mono {x : DutchAuctions × DutchStep host × DutchAuctions}
    (h : Untouched hist m n key) (hn : n ≤ hist.length) : Untouched (hist ++ [x]) m n key := by
  intro j y hm hj hy
  rw [List.getElem?_append_left (by omega)] at hy
  exact h j y hm hj hy

/-- What is pending after a step that is not about the key was pending before. -/
theorem pendingCommit_of_step {s : DutchStep host} (hok : dutchStep toXdr d s = .ok d')
    (hc : s.commitsFor key = false) (hr : s.revealsFor key = false)
    (hp : d'.pendingCommit key = some c) : d.pendingCommit key = some c := by
  cases s with
  | configure e t cfg =>
    obtain rfl := pure_eq_ok.mp hok
    exact hp
  | lapse e t b =>
    obtain rfl := pure_eq_ok.mp hok
    simp only [DutchAuctions.removePendingCommit] at hp
    by_cases hk : key = (e, t, b)
    · rw [hk, update_self] at hp
      cases hp
    · rwa [update_of_ne hk] at hp
  | commit env e t b h slippage =>
    simp only [dutchStep, snd_map_eq_ok] at hok
    obtain ⟨price, hok⟩ := hok
    obtain rfl := commitPurchase_eq_ok hok
    have hk : key ≠ (e, t, b) := by
      rintro rfl
      simp [DutchStep.commitsFor] at hc
    simpa only [DutchAuctions.setPendingCommit, update_of_ne hk] using hp
  | reveal env e t b secret price =>
    simp only [dutchStep, snd_map_eq_ok] at hok
    obtain ⟨approved, hok⟩ := hok
    obtain ⟨rfl, -⟩ := revealPurchase_eq_ok hok
    have hk : key ≠ (e, t, b) := by
      rintro rfl
      simp [DutchStep.revealsFor] at hr
    simpa only [DutchAuctions.removePendingCommit, update_of_ne hk] using hp

theorem Answered.step {s : DutchStep host} (h : Answered toXdr d hist)
    (hok : dutchStep toXdr d s = .ok d') : Answered toXdr d' (hist ++ [(d, s, d')]) := by
  refine ⟨fun key c hp => ?_, fun n s1 s2 env e t b secret price hn => ?_⟩
  · cases hc : s.commitsFor key with
    | true =>
      -- the step itself is the commit
      cases s <;> first | cases hc | skip
      case commit env e t b hash slippage =>
        obtain rfl : (e, t, b) = key := by simpa [DutchStep.commitsFor] using hc
        simp only [dutchStep, snd_map_eq_ok] at hok
        obtain ⟨price, hok⟩ := hok
        have hd' := commitPurchase_eq_ok hok
        rw [hd'] at hp
        simp only [DutchAuctions.setPendingCommit, update_self, Option.some.injEq] at hp
        subst hp
        refine ⟨hist.length, ⟨d, d', env, price, List.getElem?_concat_length, hok, rfl, rfl⟩, ?_⟩
        intro j y hm hj _
        rw [List.length_append, List.length_singleton] at hj
        omega
    | false =>
      cases hr : s.revealsFor key with
      | true =>
        -- a reveal leaves nothing pending
        cases s <;> first | cases hr | skip
        case reveal env e t b secret price =>
          obtain rfl : (e, t, b) = key := by simpa [DutchStep.revealsFor] using hr
          simp only [dutchStep, snd_map_eq_ok] at hok
          obtain ⟨approved, hok⟩ := hok
          obtain ⟨rfl, -⟩ := revealPurchase_eq_ok hok
          simp only [DutchAuctions.removePendingCommit, update_self] at hp
          cases hp
      | false =>
        obtain ⟨m, hm, hu⟩ := h.pending key c (pendingCommit_of_step hok hc hr hp)
        exact ⟨m, hm.concat _, hu.concat hc hr⟩
  · rcases Nat.lt_or_ge n hist.length with hlt | hge
    · rw [List.getElem?_append_left hlt] at hn
      obtain ⟨m, c, approved, hmn, hm, hu, hrest⟩ := h.reveals n s1 s2 env e t b secret price hn
      exact ⟨m, c, approved, hmn, hm.concat _, hu.mono hlt.le, hrest⟩
    · -- the step itself is the reveal
      have hn' : n = hist.length := by
        have := (List.getElem?_eq_some_iff.mp hn).1
        rw [List.length_append, List.length_singleton] at this
        omega
      subst hn'
      rw [List.getElem?_concat_length, Option.some.injEq, Prod.mk.injEq, Prod.mk.injEq] at hn
      obtain ⟨rfl, rfl, rfl⟩ := hn
      simp only [dutchStep, snd_map_eq_ok] at hok
      obtain ⟨approved, hok⟩ := hok
      obtain ⟨-, c, hrev⟩ := revealPurchase_eq_ok hok
      obtain ⟨m, hm, hu⟩ := h.pending _ c hrev.pending
      exact ⟨m, c, approved, hm.lt, hm.concat _, hu.mono le_rfl, hok, hrev⟩

theorem Answered.run {d0 : DutchAuctions} (h0 : ∀ key, d0.pendingCommit key = none)
    (steps : List (DutchStep host)) :
    Answered toXdr (run (dutchStep toXdr) d0 steps) (history (dutchStep toXdr) d0 steps) := by
  refine Along.history_inv (I := fun d hist => Answered toXdr d hist)
    (fun d s d' hist h _ hok => h.step hok) .trivial ⟨fun key c hp => ?_, ?_⟩
  · rw [h0] at hp
    cases hp
  · intro n s s' env e t b secret price hn
    cases hn

theorem Notes.commits (h : Notes hist m key c) :
    ∃ x, hist[m]? = some x ∧ x.2.1.commitsFor key = true := by
  obtain ⟨s, s', env, price, hm, -⟩ := h
  exact ⟨_, hm, by simp [DutchStep.commitsFor]⟩

theorem Opens.eq_of_notes (h : Opens hist m n key) {m' : Nat} (hm' : Notes hist m' key c)
    (hlt : m' < n) (hu : Untouched hist m' n key) : m = m' := by
  obtain ⟨x, hx, hcommit⟩ := h.commits
  obtain ⟨y, hy, hcommit'⟩ := hm'.commits
  rcases Nat.lt_trichotomy m m' with hlt' | heq | hgt
  · have := h.last m' y hlt' hlt hy
    rw [hcommit'] at this
    cases this
  · exact heq
  · have := (hu m x hgt h.before hx).1
    rw [hcommit] at this
    cases this

/-- **Commits are used once.** In every run from a state without pending
commits, at whatever ledger times and with auctions configured in between,
every reveal opens the last commit of its buyer for its tier, no commit is
opened twice, and an opened commit was revealed no later than its expiry, with
the price and a preimage of the hash that it noted, for a price of at most that
and at most the auction price of the moment. If SHA-256 does not collide on
the two preimages, the secret and the price are those the hash was built from. -/
theorem commits_used_once {d0 : DutchAuctions} (h0 : ∀ key, d0.pendingCommit key = none)
    (steps : List (DutchStep host)) :
    (∀ n s s' env e t b secret price,
      (history (dutchStep toXdr) d0 steps)[n]? = some (s, .reveal env e t b secret price, s') →
      ∃ m, Opens (history (dutchStep toXdr) d0 steps) m n (e, t, b)) ∧
    (∀ m n n' key, Opens (history (dutchStep toXdr) d0 steps) m n key →
      Opens (history (dutchStep toXdr) d0 steps) m n' key → n = n') ∧
    ∀ m n e t b, Opens (history (dutchStep toXdr) d0 steps) m n (e, t, b) →
      ∃ s1 s1' env1 hash slippage committed s2 s2' env2 secret price approved,
        (history (dutchStep toXdr) d0 steps)[m]? =
            some (s1, .commit env1 e t b hash slippage, s1') ∧
          commitPurchase env1 s1 e t b hash slippage = .ok (committed, s1') ∧
          (history (dutchStep toXdr) d0 steps)[n]? =
            some (s2, .reveal env2 e t b secret price, s2') ∧
          revealPurchase env2 toXdr s2 e t b secret price = .ok (approved, s2') ∧
          env2.timestamp ≤ env1.timestamp + commitExpirySecs ∧
          price = committed ∧ buildCommitHash host toXdr secret b price = hash ∧
          approved ≤ committed ∧
          (∃ cfg current, s2.dutchAuction (e, t) = some cfg ∧
            currentDutchPrice cfg env2.timestamp = .ok current ∧ approved ≤ current) ∧
          ∀ secret0 price0, Fits price → Fits price0 →
            hash = buildCommitHash host toXdr secret0 b price0 →
            (host.sha256 (commitPreimage toXdr secret b price) =
                host.sha256 (commitPreimage toXdr secret0 b price0) →
              commitPreimage toXdr secret b price = commitPreimage toXdr secret0 b price0) →
            secret = secret0 ∧ price = price0 := by
  have h : Answered toXdr (run (dutchStep toXdr) d0 steps)
      (history (dutchStep toXdr) d0 steps) := Answered.run h0 steps
  -- the reveal at `n`, with the commit it answers
  have hopen : ∀ m n key, Opens (history (dutchStep toXdr) d0 steps) m n key →
      ∃ s s' env secret price c approved,
        (history (dutchStep toXdr) d0 steps)[n]? =
            some (s, .reveal env key.1 key.2.1 key.2.2 secret price, s') ∧
          Notes (history (dutchStep toXdr) d0 steps) m key c ∧
          Untouched (history (dutchStep toXdr) d0 steps) m n key ∧
          revealPurchase env toXdr s key.1 key.2.1 key.2.2 secret price = .ok (approved, s') ∧
          Reveals env toXdr s key.1 key.2.1 key.2.2 secret price c approved := by
    intro m n key hmn
    obtain ⟨⟨s, a, s'⟩, hx, hrev⟩ := hmn.reveals
    cases a <;> first | cases hrev | skip
    case reveal env e t b secret price =>
      obtain rfl : (e, t, b) = key := by simpa [DutchStep.revealsFor] using hrev
      obtain ⟨m', c, approved, hlt, hnotes, hu, hok, hr⟩ :=
        h.reveals n s s' env e t b secret price hx
      obtain rfl := hmn.eq_of_notes hnotes hlt hu
      exact ⟨s, s', env, secret, price, c, approved, hx, hnotes, hu, hok, hr⟩
  refine ⟨fun n s s' env e t b secret price hn => ?_, fun m n n' key hmn hmn' => ?_,
    fun m n e t b hmn => ?_⟩
  · obtain ⟨m, c, approved, hlt, hnotes, hu, -⟩ := h.reveals n s s' env e t b secret price hn
    exact ⟨m, hlt, hnotes.commits, ⟨_, hn, by simp [DutchStep.revealsFor]⟩,
      fun j x hj hj' hx => (hu j x hj hj' hx).1⟩
  · -- the earlier of two reveals would lie between the commit and the later one
    have hno : ∀ n n', Opens (history (dutchStep toXdr) d0 steps) m n key →
        Opens (history (dutchStep toXdr) d0 steps) m n' key → ¬ n < n' := by
      intro n n' hmn hmn' hlt
      obtain ⟨x, hx, hrev⟩ := hmn.reveals
      obtain ⟨_, _, _, _, _, _, _, -, -, hu, -⟩ := hopen m n' key hmn'
      have := (hu n x hmn.before hlt hx).2
      rw [hrev] at this
      cases this
    have h1 := hno n n' hmn hmn'
    have h2 := hno n' n hmn' hmn
    omega
  · obtain ⟨s, s', env, secret, price, c, approved, hn, hnotes, -, hok, hr⟩ :=
      hopen m n (e, t, b) hmn
    obtain ⟨s1, s1', env1, committed, hm, hcommit, hexp, hprice⟩ := hnotes
    obtain ⟨cfg, current, hcfg, hcur, happ⟩ := hr.approved
    refine ⟨s1, s1', env1, c.hash, c.maxSlippageBps, committed, s, s', env, secret, price,
      approved, hm, hcommit, hn, hok, hexp ▸ hr.intime, hr.price.trans hprice, hr.hash, ?_,
      ⟨cfg, current, hcfg, hcur, ?_⟩, fun secret0 price0 hp hp0 hhash hfree => ?_⟩
    · rw [happ, ← hprice]
      exact min_le_right _ _
    · rw [happ]
      exact min_le_left _ _
    · exact commitPreimage_inj hp hp0 (hfree (hr.hash.trans hhash))

end Runs

namespace Sample

/-- The SHA-256 of the secret 7, the XDR of a guest's address and the price 550. -/
def auctionDigest : Bytes32 := #v[
  0xb7, 0x56, 0xc0, 0xaf, 0xa4, 0x41, 0x3a, 0x8c, 0x91, 0x6b, 0x5d, 0xcb, 0xc3, 0x89, 0x74, 0xf2,
  0x99, 0x22, 0x3b, 0xd5, 0x55, 0x95, 0x8a, 0xb7, 0x53, 0x94, 0x88, 0xc1, 0x6c, 0xaf, 0x9e, 0x34]

/-- The host of a run that hashes only this. -/
def auctionNode : Host := ⟨node.self, fun _ => auctionDigest⟩

/-- The XDR of an account address whose key is 32 times the byte `a`. -/
def accountXdr (_ : Address) : Bytes := [0, 0, 0, 18, 0, 0, 0, 0, 0, 0, 0, 0] ++ List.replicate 32 97

def bidAt (now : Nat) : Env auctionNode where
  timestamp := now
  auth a := a == alice
  selfSilent := by decide
  registry := registry event
  lastprice _ := none
  isProMember _ := none
  refuses _ _ _ _ := false

/-- A guest commits at the price 550 and reveals when the price is 460. -/
def dutchRun : List (DutchStep auctionNode) :=
  [.configure "e1" "tier" ⟨1000, 100, 0, 1000, false⟩,
    .commit (bidAt 500) "e1" "tier" alice auctionDigest 300,
    .reveal (bidAt 600) "e1" "tier" alice [7] 550,
    .reveal (bidAt 600) "e1" "tier" alice [7] 550]

end Sample

/-- The second reveal of the same commit fails. -/
theorem commits_used_once_guest :
    (history (dutchStep Sample.accountXdr) DutchAuctions.empty Sample.dutchRun).length = 3 ∧
      (∃ m, Opens (history (dutchStep Sample.accountXdr) DutchAuctions.empty Sample.dutchRun) m 2
        ("e1", "tier", Sample.alice)) := by
  refine ⟨by decide, ?_⟩
  have hreveal : ∃ s s', (history (dutchStep Sample.accountXdr) DutchAuctions.empty
      Sample.dutchRun)[2]? =
        some (s, .reveal (Sample.bidAt 600) "e1" "tier" Sample.alice [7] 550, s') := ⟨_, _, rfl⟩
  obtain ⟨s, s', hs⟩ := hreveal
  exact (commits_used_once (fun _ => rfl) Sample.dutchRun).1 2 s s' _ _ _ _ _ _ hs

end Agora.TicketPayment
