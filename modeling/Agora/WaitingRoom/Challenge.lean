import Agora.Lib.Machine
import Agora.Lib.Unicode
import Agora.Zk.Hex
import Mathlib.Logic.Function.Basic

/-!
# Proof-of-work challenges, command by command

`request_challenge` and `join_queue` of `handlers/waiting_room.rs`, with
`services/pow.rs`. A challenge is a Redis key with the event as its value. A
join reads the key and, when the event is its own, deletes it and passes,
whatever the deletion says. The commands of concurrent joins interleave, so two
joins that read the key before either deletes it both pass. Where a join only
finds the key while no other holds it (`OneHolder`), each issue lets one pass.
-/

namespace Agora.WaitingRoom.Challenge

open Lib Function

/-! ## Proof of work -/

/-- `services/pow.rs` with the hash of the `sha2` crate, and the difficulty that is configured. -/
structure Pow where
  sha256 : Bytes → Bytes32
  difficulty : Nat

def verifyPow (pow : Pow) (challenge nonce : String) : Bool :=
  if pow.difficulty = 0 then true else
    let digest := pow.sha256 (challenge.toUTF8.toList ++ nonce.toUTF8.toList)
    ((Zk.hexEncode digest.toList).toList.take pow.difficulty).all (· == '0')

/-- The hexadecimal digits of 16 random bytes. -/
def generateChallenge (random : Vector UInt8 16) : String := Zk.hexEncode random.toList

def powChallengePrefix : String := "agora:pow"

def powChallengeKey (challenge : String) : String := powChallengePrefix ++ ":" ++ challenge

theorem powChallengeKey_inj {c d : String} : powChallengeKey c = powChallengeKey d ↔ c = d := by
  refine ⟨fun h => ?_, fun h => h ▸ rfl⟩
  have hlist := congrArg String.toList h
  simp only [powChallengeKey, String.toList_append] at hlist
  exact String.toList_inj.mp (List.append_cancel_left hlist)

/-! ## Requests -/

/-- `trim().is_empty()`. -/
def isBlank (s : String) : Bool := s.toList.all isWhitespace

structure JoinRequest where
  eventId : String
  clientId : String
  challenge : String
  nonce : String
  deriving DecidableEq, Repr

def isValidClientId (clientId : String) : Bool :=
  let len := clientId.utf8ByteSize
  (1 ≤ len && len ≤ 128) &&
    clientId.toList.all fun c => c.isAlphanum || c == '-' || c == '_' || c == '.' || c == ':'

/-- An answer with an error. -/
inductive ApiError where
  | badRequest (message : String)
  | unprocessableEntity (message : String)
  deriving DecidableEq, Repr

/-- The checks of `join_queue` before its first command. -/
def validate (payload : JoinRequest) : Except ApiError Unit := do
  ensure ((isBlank payload.eventId || isBlank payload.clientId || isBlank payload.challenge ||
      isBlank payload.nonce) = false)
    (.badRequest "event_id, client_id, challenge, and nonce are all required")
  ensure (isValidClientId payload.clientId = true) (.badRequest
    ("client_id must be 1-128 characters and contain only letters, digits, " ++
      "'-', '_', '.', ':'"))

/-- The challenge that `request_challenge` stores and answers with. -/
def requestChallenge (eventId : String) (random : Vector UInt8 16) : Except ApiError String := do
  ensure (isBlank eventId = false) (.badRequest "event_id is required")
  return generateChallenge random

/-- Where a join stands. -/
inductive Phase where
  | get
  | del
  | refused (error : ApiError)
  /-- Past both checks: the rate of the event is derived and the client is queued. -/
  | verified
  | dropped
  deriving DecidableEq

structure Request where
  payload : JoinRequest
  phase : Phase
  deriving DecidableEq

/-- The challenge keys of Redis, and the joins. -/
structure Desk where
  keys : String → Option String
  requests : Nat → Option Request

def Desk.new : Desk := ⟨fun _ => none, fun _ => none⟩

/-- A step: the `SET` of a challenge, a join that arrives, its `GET`, its `DEL`, a join that is
dropped, or a key that expires. A command may fail. -/
inductive Step where
  | challenge (eventId : String) (random : Vector UInt8 16)
  | join (i : Nat) (payload : JoinRequest)
  | get (i : Nat) (executed : Bool)
  | del (i : Nat) (executed : Bool)
  | drop (i : Nat)
  | expire (challenge : String)

variable (pow : Pow)

/-- The answer to a join whose `GET` found `stored`. -/
def afterGet (payload : JoinRequest) (stored : Option String) : Phase :=
  if stored = some payload.eventId then .del
  else .refused (.unprocessableEntity "Invalid, expired, or already-used proof-of-work challenge")

/-- The answer to a join that passed the challenge check. -/
def afterDel (payload : JoinRequest) : Phase :=
  if verifyPow pow payload.challenge payload.nonce then .verified
  else .refused (.unprocessableEntity "Proof-of-work solution is incorrect")

/-- A join after its checks. -/
def arrive (payload : JoinRequest) : Phase :=
  match validate payload with
  | .ok () => .get
  | .error e => .refused e

/-- The error is for a step that is not the next one of a join, and for a challenge that is
refused. -/
def step (s : Desk) : Step → Except Unit Desk
  | .challenge eventId random =>
    match requestChallenge eventId random with
    | .ok c => .ok { s with keys := update s.keys (powChallengeKey c) (some eventId) }
    | .error _ => .error ()
  | .join i payload =>
    match s.requests i with
    | none => .ok { s with requests := update s.requests i (some ⟨payload, arrive payload⟩) }
    | some _ => .error ()
  | .get i executed =>
    match s.requests i with
    | some ⟨payload, .get⟩ =>
      let stored := if executed then s.keys (powChallengeKey payload.challenge) else none
      .ok { s with requests := update s.requests i (some ⟨payload, afterGet payload stored⟩) }
    | _ => .error ()
  | .del i executed =>
    match s.requests i with
    | some ⟨payload, .del⟩ =>
      -- the result of the command is not looked at
      .ok
        { keys := if executed then update s.keys (powChallengeKey payload.challenge) none else s.keys
          requests := update s.requests i (some ⟨payload, afterDel pow payload⟩) }
    | _ => .error ()
  | .drop i =>
    match s.requests i with
    | some r => .ok { s with requests := update s.requests i (some { r with phase := .dropped }) }
    | none => .error ()
  | .expire challenge => .ok { s with keys := update s.keys (powChallengeKey challenge) none }

/-! ## Issues and passes -/

/-- The challenge and the event of an issue. -/
def issueOf : Desk × Step × Desk → Option (String × String)
  | (_, .challenge eventId random, _) => some (generateChallenge random, eventId)
  | _ => none

/-- The challenge and the event of a join that passes the challenge check. -/
def passOf : Desk × Step × Desk → Option (String × String)
  | (s, .del i _, _) => (s.requests i).map fun r => (r.payload.challenge, r.payload.eventId)
  | _ => none

def issues (c : String) (hist : List (Desk × Step × Desk)) : Nat :=
  (hist.filterMap issueOf).countP (·.1 == c)

def passes (c : String) (hist : List (Desk × Step × Desk)) : Nat :=
  (hist.filterMap passOf).countP (·.1 == c)

/-- The join has read the challenge and not yet deleted it. -/
def Holds (s : Desk) (i : Nat) (c : String) : Prop :=
  ∃ payload, s.requests i = some ⟨payload, .del⟩ ∧ payload.challenge = c

/-- A join finds its challenge only while no other join holds it, and a `DEL` fails only when the
key is gone. -/
def OneHolder (s : Desk) : Step → Prop
  | .get i true => ∀ payload, s.requests i = some ⟨payload, .get⟩ →
      s.keys (powChallengeKey payload.challenge) = some payload.eventId →
      ∀ j, ¬ Holds s j payload.challenge
  | .del i false => ∀ c, Holds s i c → s.keys (powChallengeKey c) = none
  | _ => True

variable {pow} {s s' : Desk} {a : Step} {i j : Nat} {c d e : String} {payload : JoinRequest}
  {phase : Phase} {hist : List (Desk × Step × Desk)}

@[simp] theorem issues_concat {x : Desk × Step × Desk} :
    issues c (hist ++ [x]) = issues c hist + (issueOf x).toList.countP (·.1 == c) := by
  cases h : issueOf x <;> simp [issues, h]

@[simp] theorem passes_concat {x : Desk × Step × Desk} :
    passes c (hist ++ [x]) = passes c hist + (passOf x).toList.countP (·.1 == c) := by
  cases h : passOf x <;> simp [passes, h]

theorem arrive_ne_del (payload : JoinRequest) : arrive payload ≠ .del := by
  unfold arrive
  split <;> simp

theorem afterGet_eq_del {stored : Option String} :
    afterGet payload stored = .del ↔ stored = some payload.eventId := by
  unfold afterGet
  split <;> simp_all

theorem afterDel_ne_del (payload : JoinRequest) : afterDel pow payload ≠ .del := by
  unfold afterDel
  split <;> simp

theorem holds_update {keys : String → Option String} :
    Holds ⟨keys, update s.requests i (some ⟨payload, phase⟩)⟩ j c ↔
      (j = i ∧ phase = .del ∧ payload.challenge = c) ∨ (j ≠ i ∧ Holds s j c) := by
  by_cases hj : j = i
  · subst hj
    simp [Holds, update_self]
  · simp [Holds, hj]

/-! ## The event -/

/-- Keys, holders and passes go back to issues for the same event. -/
structure Traced (s : Desk) (hist : List (Desk × Step × Desk)) : Prop where
  key : ∀ c e, s.keys (powChallengeKey c) = some e → (c, e) ∈ hist.filterMap issueOf
  held : ∀ i payload, s.requests i = some ⟨payload, .del⟩ →
    (payload.challenge, payload.eventId) ∈ hist.filterMap issueOf
  passed : ∀ x ∈ hist.filterMap passOf, x ∈ hist.filterMap issueOf

namespace Traced

theorem idle (h : Traced s hist) (hi : issueOf (s, a, s') = none) (hp : passOf (s, a, s') = none)
    (hkey : ∀ c e, s'.keys (powChallengeKey c) = some e → (c, e) ∈ hist.filterMap issueOf)
    (hheld : ∀ i payload, s'.requests i = some ⟨payload, .del⟩ →
      (payload.challenge, payload.eventId) ∈ hist.filterMap issueOf) :
    Traced s' (hist ++ [(s, a, s')]) := by
  have hissues : (hist ++ [(s, a, s')]).filterMap issueOf = hist.filterMap issueOf := by simp [hi]
  have hpasses : (hist ++ [(s, a, s')]).filterMap passOf = hist.filterMap passOf := by simp [hp]
  exact ⟨hissues ▸ hkey, hissues ▸ hheld, by rw [hissues, hpasses]; exact h.passed⟩

theorem key_of_update (h : Traced s hist) (hk : update s.keys (powChallengeKey d) none
    (powChallengeKey c) = some e) : (c, e) ∈ hist.filterMap issueOf := by
  by_cases hc : powChallengeKey c = powChallengeKey d
  · rw [hc, update_self] at hk
    cases hk
  · rw [update_of_ne hc] at hk
    exact h.key c e hk

/-- A join that goes on to a phase in which it holds only what was issued. -/
theorem held_of_update (h : Traced s hist)
    (hdel : phase = .del → (payload.challenge, payload.eventId) ∈ hist.filterMap issueOf)
    (j : Nat) (q : JoinRequest) (hq : update s.requests i (some ⟨payload, phase⟩) j =
      some ⟨q, .del⟩) : (q.challenge, q.eventId) ∈ hist.filterMap issueOf := by
  by_cases hj : j = i
  · subst hj
    obtain ⟨rfl, rfl⟩ : payload = q ∧ phase = .del := by simpa using hq
    exact hdel rfl
  · rw [update_of_ne hj] at hq
    exact h.held j q hq

theorem challenge {eventId : String} {random : Vector UInt8 16} (h : Traced s hist)
    (hok : step pow s (.challenge eventId random) = .ok s') :
    Traced s' (hist ++ [(s, .challenge eventId random, s')]) := by
  simp only [Challenge.step, requestChallenge] at hok
  split at hok
  · next c' hc =>
    simp only [bind_eq_ok, ensure_eq_ok, pure_eq_ok, exists_const] at hc
    obtain ⟨-, rfl⟩ := hc
    obtain rfl := Except.ok.inj hok
    have hnew : ∀ t x, x ∈ (hist ++ [(s, Step.challenge eventId random, t)]).filterMap issueOf ↔
        x ∈ hist.filterMap issueOf ∨ x = (generateChallenge random, eventId) := by
      intro t x
      simp [issueOf]
    refine ⟨fun c e hk => (hnew _ _).mpr ?_, fun i q hq => (hnew _ _).mpr (.inl (h.held i q hq)),
      fun x hx => (hnew _ _).mpr (.inl (h.passed x (by simpa [passOf] using hx)))⟩
    dsimp only at hk
    by_cases hc : powChallengeKey c = powChallengeKey (generateChallenge random)
    · rw [hc, update_self] at hk
      rw [powChallengeKey_inj.mp hc, Option.some.inj hk]
      exact .inr rfl
    · rw [update_of_ne hc] at hk
      exact .inl (h.key c e hk)
  · cases hok

theorem join (h : Traced s hist) (hok : step pow s (.join i payload) = .ok s') :
    Traced s' (hist ++ [(s, .join i payload, s')]) := by
  simp only [Challenge.step] at hok
  split at hok
  · obtain rfl := Except.ok.inj hok
    refine h.idle rfl rfl h.key (h.held_of_update fun hdel => ?_)
    exact absurd hdel (arrive_ne_del payload)
  · cases hok

theorem get {executed : Bool} (h : Traced s hist) (hok : step pow s (.get i executed) = .ok s') :
    Traced s' (hist ++ [(s, .get i executed, s')]) := by
  simp only [Challenge.step] at hok
  split at hok
  · next payload hr =>
    obtain rfl := Except.ok.inj hok
    refine h.idle rfl rfl h.key (h.held_of_update fun hdel => ?_)
    -- the join holds the challenge because the key names its event
    have hstored := afterGet_eq_del.mp hdel
    cases executed with
    | true => exact h.key _ _ hstored
    | false => cases hstored
  · cases hok

theorem del {executed : Bool} (h : Traced s hist) (hok : step pow s (.del i executed) = .ok s') :
    Traced s' (hist ++ [(s, .del i executed, s')]) := by
  simp only [Challenge.step] at hok
  split at hok
  · next payload hr =>
    obtain rfl := Except.ok.inj hok
    have hheld := h.held i payload hr
    have hissues : ∀ t, (hist ++ [(s, Step.del i executed, t)]).filterMap issueOf =
        hist.filterMap issueOf := by
      intro t
      simp [issueOf]
    refine ⟨fun c e hk => ?_, fun j q hq => ?_, fun x hx => ?_⟩ <;> rw [hissues]
    · cases executed with
      | true => exact h.key_of_update hk
      | false => exact h.key c e hk
    · refine h.held_of_update (fun hdel => ?_) j q hq
      exact hheld
    · simp only [List.filterMap_append, List.mem_append] at hx
      rcases hx with hx | hx
      · exact h.passed x hx
      · obtain rfl : (payload.challenge, payload.eventId) = x := by
          simpa [passOf, hr, eq_comm] using hx
        exact hheld
  · cases hok

theorem drop (h : Traced s hist) (hok : step pow s (.drop i) = .ok s') :
    Traced s' (hist ++ [(s, .drop i, s')]) := by
  simp only [Challenge.step] at hok
  split at hok
  · next r hr =>
    obtain rfl := Except.ok.inj hok
    refine h.idle rfl rfl h.key (h.held_of_update fun hdel => ?_)
    cases hdel
  · cases hok

theorem expire (h : Traced s hist) (hok : step pow s (.expire d) = .ok s') :
    Traced s' (hist ++ [(s, .expire d, s')]) := by
  obtain rfl := Except.ok.inj hok
  exact h.idle rfl rfl (fun c e hk => h.key_of_update hk) h.held

theorem step (h : Traced s hist) (hok : step pow s a = .ok s') :
    Traced s' (hist ++ [(s, a, s')]) := by
  cases a with
  | challenge => exact h.challenge hok
  | join => exact h.join hok
  | get => exact h.get hok
  | del => exact h.del hok
  | drop => exact h.drop hok
  | expire => exact h.expire hok

end Traced

/-! ## Single use -/

/-- Somebody may still pass with the challenge. -/
def Live (s : Desk) (c : String) : Prop :=
  s.keys (powChallengeKey c) ≠ none ∨ ∃ i, Holds s i c

/-- One join at most holds a challenge, and one that is live has an issue left. -/
structure Fair (s : Desk) (hist : List (Desk × Step × Desk)) : Prop where
  unique : ∀ c i j, Holds s i c → Holds s j c → i = j
  spent : ∀ c, passes c hist ≤ issues c hist
  live : ∀ c, Live s c → passes c hist < issues c hist

namespace Fair

/-- A step that makes nobody a holder and nothing live. -/
theorem idle (h : Fair s hist) (hi : issueOf (s, a, s') = none) (hp : passOf (s, a, s') = none)
    (hheld : ∀ c i, Holds s' i c → Holds s i c) (hlive : ∀ c, Live s' c → Live s c) :
    Fair s' (hist ++ [(s, a, s')]) := by
  refine ⟨fun c i j hi hj => h.unique c i j (hheld c i hi) (hheld c j hj), fun c => ?_,
    fun c hc => ?_⟩
  · simpa [hi, hp] using h.spent c
  · simpa [hi, hp] using h.live c (hlive c hc)

theorem live_of_update {keys : String → Option String} {requests : Nat → Option Request}
    (hc : Live ⟨update keys (powChallengeKey d) none, requests⟩ c) : Live ⟨keys, requests⟩ c := by
  rcases hc with hk | hheld
  · refine .inl fun hnone => hk ?_
    by_cases hc : powChallengeKey c = powChallengeKey d
    · exact hc ▸ update_self ..
    · exact (update_of_ne hc ..).trans hnone
  · exact .inr hheld

theorem challenge {eventId : String} {random : Vector UInt8 16} (h : Fair s hist)
    (hok : step pow s (.challenge eventId random) = .ok s') :
    Fair s' (hist ++ [(s, .challenge eventId random, s')]) := by
  simp only [Challenge.step, requestChallenge] at hok
  split at hok
  · next c' hc =>
    simp only [bind_eq_ok, ensure_eq_ok, pure_eq_ok, exists_const] at hc
    obtain ⟨-, rfl⟩ := hc
    obtain rfl := Except.ok.inj hok
    refine ⟨h.unique, fun c => ?_, fun c hc => ?_⟩
    · have := h.spent c
      simp only [issues_concat, passes_concat, passOf, Option.toList_none, List.countP_nil]
      omega
    · simp only [issues_concat, passes_concat, passOf, issueOf, Option.toList_none,
        Option.toList_some, List.countP_nil, List.countP_singleton]
      by_cases hnew : generateChallenge random = c
      · have := h.spent c
        simp only [hnew, beq_self_eq_true, if_true]
        omega
      · have hlive : Live s c := by
          refine hc.imp_left fun hk hnone => hk ?_
          exact (update_of_ne (fun heq => hnew (powChallengeKey_inj.mp heq).symm) ..).trans hnone
        have := h.live c hlive
        omega
  · cases hok

theorem join (h : Fair s hist) (hok : step pow s (.join i payload) = .ok s') :
    Fair s' (hist ++ [(s, .join i payload, s')]) := by
  simp only [Challenge.step] at hok
  split at hok
  · obtain rfl := Except.ok.inj hok
    have hheld : ∀ c j, Holds ⟨s.keys, update s.requests i (some ⟨payload, arrive payload⟩)⟩ j c →
        Holds s j c := by
      intro c j hj
      rcases holds_update.mp hj with ⟨-, hdel, -⟩ | ⟨-, hj⟩
      · exact absurd hdel (arrive_ne_del payload)
      · exact hj
    exact h.idle rfl rfl hheld fun c hc => hc.imp_right (Exists.imp (hheld c))
  · cases hok

theorem get {executed : Bool} (h : Fair s hist) (hC : OneHolder s (.get i executed))
    (hok : step pow s (.get i executed) = .ok s') :
    Fair s' (hist ++ [(s, .get i executed, s')]) := by
  simp only [Challenge.step] at hok
  split at hok
  · next payload hr =>
    obtain rfl := Except.ok.inj hok
    by_cases hstored : (if executed = true then s.keys (powChallengeKey payload.challenge)
        else none) = some payload.eventId
    · -- the join finds the challenge, which no other join holds
      obtain ⟨rfl, hkey⟩ : executed = true ∧
          s.keys (powChallengeKey payload.challenge) = some payload.eventId := by
        cases executed with
        | true => exact ⟨rfl, hstored⟩
        | false => cases hstored
      have hfree := hC payload hr hkey
      refine ⟨fun c j k hj hk => ?_, fun c => by simpa [issueOf, passOf] using h.spent c,
        fun c hc => ?_⟩
      · rcases holds_update.mp hj with ⟨rfl, -, rfl⟩ | ⟨-, hj⟩
        · rcases holds_update.mp hk with ⟨rfl, -, -⟩ | ⟨-, hk⟩
          · rfl
          · exact absurd hk (hfree k)
        · rcases holds_update.mp hk with ⟨-, -, rfl⟩ | ⟨-, hk⟩
          · exact absurd hj (hfree j)
          · exact h.unique c j k hj hk
      · have hlive : Live s c := by
          rcases hc with hk | ⟨j, hj⟩
          · exact .inl hk
          · rcases holds_update.mp hj with ⟨-, -, rfl⟩ | ⟨-, hj⟩
            · exact .inl (by rw [hkey]; simp)
            · exact .inr ⟨j, hj⟩
        simpa [issueOf, passOf] using h.live c hlive
    · have hheld : ∀ c j, Holds ⟨s.keys, update s.requests i (some ⟨payload, afterGet payload
          (if executed = true then s.keys (powChallengeKey payload.challenge) else none)⟩)⟩ j c →
          Holds s j c := by
        intro c j hj
        rcases holds_update.mp hj with ⟨-, hdel, -⟩ | ⟨-, hj⟩
        · exact absurd (afterGet_eq_del.mp hdel) hstored
        · exact hj
      exact h.idle rfl rfl hheld fun c hc => hc.imp_right (Exists.imp (hheld c))
  · cases hok

theorem del {executed : Bool} (h : Fair s hist) (hC : OneHolder s (.del i executed))
    (hok : step pow s (.del i executed) = .ok s') :
    Fair s' (hist ++ [(s, .del i executed, s')]) := by
  simp only [Challenge.step] at hok
  split at hok
  · next payload hr =>
    obtain rfl := Except.ok.inj hok
    have hholds : Holds s i payload.challenge := ⟨payload, hr, rfl⟩
    have hheld : ∀ keys c j, Holds ⟨keys, update s.requests i
        (some ⟨payload, afterDel pow payload⟩)⟩ j c → j ≠ i ∧ Holds s j c := by
      intro keys c j hj
      rcases holds_update.mp hj with ⟨-, hdel, -⟩ | hj
      · exact absurd hdel (afterDel_ne_del payload)
      · exact hj
    -- nothing is left of the challenge
    have hgone : ¬ Live ⟨if executed = true then
        update s.keys (powChallengeKey payload.challenge) none else s.keys,
        update s.requests i (some ⟨payload, afterDel pow payload⟩)⟩ payload.challenge := by
      rintro (hk | ⟨j, hj⟩)
      · cases executed with
        | true => exact hk (update_self ..)
        | false => exact hk (hC _ hholds)
      · obtain ⟨hne, hj⟩ := hheld _ _ _ hj
        exact hne (h.unique _ _ _ hj hholds)
    refine ⟨fun c j k hj hk => h.unique c j k (hheld _ _ _ hj).2 (hheld _ _ _ hk).2,
      fun c => ?_, fun c hc => ?_⟩
    · simp only [issues_concat, passes_concat, passOf, issueOf, hr, Option.map_some,
        Option.toList_none, Option.toList_some, List.countP_nil, List.countP_singleton]
      by_cases heq : payload.challenge = c
      · have := h.live c (heq ▸ .inr ⟨i, hholds⟩)
        simp only [heq, beq_self_eq_true, if_true]
        omega
      · simpa [heq] using h.spent c
    · have hne : payload.challenge ≠ c := fun heq => hgone (heq ▸ hc)
      have hlive : Live s c := by
        rcases hc with hk | ⟨j, hj⟩
        · cases executed with
          | true => exact live_of_update (.inl hk)
          | false => exact .inl hk
        · exact .inr ⟨j, (hheld _ _ _ hj).2⟩
      simpa [issueOf, passOf, hr, hne] using h.live c hlive
  · cases hok

theorem drop (h : Fair s hist) (hok : step pow s (.drop i) = .ok s') :
    Fair s' (hist ++ [(s, .drop i, s')]) := by
  simp only [Challenge.step] at hok
  split at hok
  · next r hr =>
    obtain rfl := Except.ok.inj hok
    have hheld : ∀ c j, Holds ⟨s.keys, update s.requests i (some ⟨r.payload, .dropped⟩)⟩ j c →
        Holds s j c := by
      intro c j hj
      rcases holds_update.mp hj with ⟨-, hdel, -⟩ | ⟨-, hj⟩
      · cases hdel
      · exact hj
    exact h.idle rfl rfl hheld fun c hc => hc.imp_right (Exists.imp (hheld c))
  · cases hok

theorem expire (h : Fair s hist) (hok : step pow s (.expire d) = .ok s') :
    Fair s' (hist ++ [(s, .expire d, s')]) := by
  obtain rfl := Except.ok.inj hok
  exact h.idle rfl rfl (fun _ _ hj => hj) fun _ hc => live_of_update hc

theorem step (h : Fair s hist) (hC : OneHolder s a) (hok : step pow s a = .ok s') :
    Fair s' (hist ++ [(s, a, s')]) := by
  cases a with
  | challenge => exact h.challenge hok
  | join => exact h.join hok
  | get => exact h.get hC hok
  | del => exact h.del hC hok
  | drop => exact h.drop hok
  | expire => exact h.expire hok

end Fair

/-- **Challenges, in every interleaving.** A join passes only for an event that its challenge was
issued for. Along `OneHolder`, no challenge lets more joins pass than it was issued times. -/
theorem challenge_single_use (pow : Pow) (steps : List Step) :
    (∀ x ∈ (history (step pow) .new steps).filterMap passOf,
      x ∈ (history (step pow) .new steps).filterMap issueOf) ∧
      (Along (step pow) OneHolder .new steps →
        ∀ c, passes c (history (step pow) .new steps) ≤
          issues c (history (step pow) .new steps)) := by
  constructor
  · have htraced : Traced (run (step pow) .new steps) (history (step pow) .new steps) := by
      refine Along.history_inv (C := fun _ _ => True) (fun _ _ _ _ h _ hok => h.step hok) .trivial
        ⟨fun _ _ h => ?_, fun _ _ h => ?_, fun _ h => ?_⟩
      · cases h
      · cases h
      · cases h
    exact htraced.passed
  · intro h
    refine (Along.history_inv (I := Fair) (fun _ _ _ _ h hC hok => h.step hC hok) h
      ⟨?_, fun _ => le_rfl, ?_⟩).spent
    · rintro c i j ⟨_, h, -⟩
      cases h
    · rintro c (h | ⟨i, _, h, -⟩)
      · exact absurd rfl h
      · cases h

namespace Sample

/-- A waiting room that asks for no work. -/
def noWork : Pow := ⟨fun _ => .replicate 32 0, 0⟩

def random : Vector UInt8 16 := .replicate 16 0

def solution (clientId : String) : JoinRequest :=
  ⟨"e1", clientId, generateChallenge random, "0"⟩

/-- A join with its challenge, and one that comes too late. -/
def inTurn : List Step :=
  [.challenge "e1" random, .join 0 (solution "a"), .get 0 true, .del 0 true,
    .join 1 (solution "b"), .get 1 true]

/-- The first join is alone, and the second finds nothing. -/
theorem along_inTurn : Along (step noWork) OneHolder .new inTurn := by
  refine ⟨fun _ _ => True.intro, fun _ _ => True.intro, fun _ _ => ?_, fun _ _ => True.intro,
    fun _ _ => True.intro, fun _ _ => ?_, True.intro⟩
  · rintro payload - - j ⟨q, hq, -⟩
    by_cases hj : j = 0
    · subst hj
      cases hq
    · have hnone : (run (step noWork) .new (inTurn.take 2)).requests j = none := update_of_ne hj ..
      cases hnone.symm.trans hq
  · intro payload hp hkey
    obtain rfl : solution "b" = payload := congrArg Request.payload (Option.some.inj hp)
    cases hkey

/-- Both read the challenge before either deletes it. -/
def together : List Step :=
  [.challenge "e1" random, .join 0 (solution "a"), .join 1 (solution "b"), .get 0 true,
    .get 1 true, .del 0 true, .del 1 true]

end Sample

open Challenge.Sample in
theorem challenge_single_use_inTurn :
    passes (generateChallenge random) (history (step noWork) .new inTurn) ≤
      issues (generateChallenge random) (history (step noWork) .new inTurn) ∧
    ((run (step noWork) .new inTurn).requests 0).map (·.phase) = some .verified :=
  ⟨(challenge_single_use noWork inTurn).2 along_inTurn _, by decide⟩

open Challenge.Sample in
theorem challenge_single_use_together :
    issues (generateChallenge random) (history (step noWork) .new together) = 1 ∧
      passes (generateChallenge random) (history (step noWork) .new together) = 2 ∧
      ((run (step noWork) .new together).requests 0).map (·.phase) = some .verified ∧
      ((run (step noWork) .new together).requests 1).map (·.phase) = some .verified := by
  decide

end Agora.WaitingRoom.Challenge
