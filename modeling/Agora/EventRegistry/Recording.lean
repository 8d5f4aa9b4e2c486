import Agora.EventRegistry.Contract

/-!
# What a call writes

`Edit env w old op e new` lists the calls that read the record `old` of event
`e`, change it to `new` and write it back, with what each call checked.
`Recording env w op c` says what a successful call does to the catalog: such an
edit, a new event, the legacy overwriting of a record, archiving, or the sweep
over the events of an organizer who is blacklisted. All other calls leave the
catalog alone, and `Leaves` says which calls touch the blacklist and the
multisig.
-/

namespace Agora.EventRegistry

open Lib Function

variable {host : Host}

/-- The tickets that a sale or a mint adds to a tier stay within its limit, and
the supply within the event's. -/
structure Sells (old : EventInfo) (tierId : String) (tier : TicketTier) (quantity : Nat) :
    Prop where
  listed : old.tiers.get tierId = some tier
  within : tier.currentSold + quantity ≤ tier.tierLimit
  supply : 0 < old.maxSupply → old.currentSupply + quantity ≤ old.maxSupply

/-- The record after `quantity` more tickets of a tier. -/
def EventInfo.sell (old : EventInfo) (tierId : String) (tier : TicketTier) (quantity : Nat) :
    EventInfo :=
  { old with
    tiers := old.tiers.set tierId { tier with currentSold := tier.currentSold + quantity }
    currentSupply := old.currentSupply + quantity }

inductive Edit (env : Env host) (w : World) (old : EventInfo) : Op → String → EventInfo → Prop where
  | status {e : String} {b : Bool} (live : old.status ≠ .cancelled) (changed : old.isActive ≠ b) :
      Edit env w old (.updateEventStatus e b) e { old with isActive := b }
  | cancel {e : String} {reason : Option String} :
      Edit env w old (.cancelEvent e reason) e
        { old with status := .cancelled, isActive := false, cancellationReason := reason }
  | metadata {e cid : String} :
      Edit env w old (.updateMetadata e cid) e { old with metadataCid := cid }
  | feedback {e cid : String} :
      Edit env w old (.setFeedbackCid e cid) e { old with feedbackCid := some cid }
  | resaleCap {e : String} {cap : Option Nat} :
      Edit env w old (.setResaleCapBps e cap) e { old with resaleCapBps := cap }
  | postpone {e : String} {start grace : Nat} :
      Edit env w old (.postponeEvent e start grace) e
        { old with startTime := start, isPostponed := true, gracePeriodEnd := grace }
  | customFee {e : String} {fee : Option Nat} {admin : Address}
      (isAdmin : w.multisig.admin = some admin) (signed : env.auth admin = true) :
      Edit env w old (.setCustomEventFee e fee) e { old with customFeeBps := fee }
  | addTier {e tierId : String} {tier : TicketTier} :
      Edit env w old (.addTier e tierId tier) e { old with tiers := old.tiers.set tierId tier }
  | deactivateTier {e tierId : String} {tier : TicketTier}
      (listed : old.tiers.get tierId = some tier) :
      Edit env w old (.deactivateTier e tierId) e
        { old with tiers := old.tiers.set tierId { tier with tierLimit := tier.currentSold } }
  | increment {e tierId : String} {user token : Address} {quantity : Nat} {tier : TicketTier}
      (live : old.isActive = true) (sells : Sells old tierId tier quantity) :
      Edit env w old (.incrementInventory e tierId user quantity token) e
        { old.sell tierId tier quantity with
          goalMet := old.goalMetBy (old.currentSupply + quantity) }
  | mint {e tierId : String} {chain : Nat} {hash : Bytes32} {recipient : Address}
      {signatures : List Bytes} {quantity : Nat} {tier : TicketTier}
      (live : old.isActive = true) (sells : Sells old tierId tier quantity) :
      Edit env w old (.mintCrossChainTicket chain hash recipient tierId signatures e quantity) e
        (old.sell tierId tier quantity)
  | decrement {e tierId : String} {tier : TicketTier}
      (listed : old.tiers.get tierId = some tier) (sold : 0 < tier.currentSold) :
      Edit env w old (.decrementInventory e tierId) e
        { old with
          tiers := old.tiers.set tierId { tier with currentSold := tier.currentSold - 1 }
          currentSupply := old.currentSupply - 1 }

/-- The call writes an event, or suspends them, or had nothing to change. -/
def Op.records : Op → Bool
  | .registerEvent .. | .storeEvent .. | .updateEventStatus .. | .cancelEvent .. | .archiveEvent ..
  | .setResaleCapBps .. | .postponeEvent .. | .setCustomEventFee .. | .addTier ..
  | .deactivateTier .. | .incrementInventory .. | .decrementInventory ..
  | .mintCrossChainTicket .. | .blacklistOrganizer .. => true
  | _ => false

/-- What a successful call does to the catalog. -/
inductive Recording (env : Env host) (w : World) : Op → Catalog → Prop where
  /-- Nothing. -/
  | same {op : Op} (idle : op.records = false) : Recording env w op w.catalog
  /-- The event has the status already. -/
  | settled {e : String} {b : Bool} {old : EventInfo} (stored : w.catalog.event e = some old)
      (already : old.isActive = b) : Recording env w (.updateEventStatus e b) w.catalog
  /-- The organizer is blacklisted already. -/
  | banned {o : Address} {reason : String} (already : w.blacklist.blacklisted o = true) :
      Recording env w (.blacklistOrganizer o reason) w.catalog
  | register {a : EventRegistrationArgs} {c : Catalog} (free : w.catalog.event a.eventId = none)
      (cleared : w.blacklist.blacklisted a.organizerAddress = false)
      (written : w.catalog.storeEvent (a.event w.config.platformFee env.timestamp) = .ok c) :
      Recording env w (.registerEvent a) c
  | store {info old : EventInfo} {c : Catalog} (stored : w.catalog.event info.eventId = some old)
      (owner : old.organizerAddress = info.organizerAddress)
      (written : w.catalog.storeEvent info = .ok c) : Recording env w (.storeEvent info) c
  | edit {op : Op} {e : String} {old new : EventInfo} {c : Catalog}
      (stored : w.catalog.event e = some old) (edited : Edit env w old op e new)
      (written : w.catalog.updateEvent new = .ok c) : Recording env w op c
  | archive {e : String} {old : EventInfo} (stored : w.catalog.event e = some old)
      (idle : old.isActive = false) :
      Recording env w (.archiveEvent e) (w.catalog.removeEvent e)
  | sweep {o : Address} {reason : String} {c : Catalog} (isNew : w.blacklist.blacklisted o = false)
      (written : suspendOrganizerEvents w.catalog o = .ok c) :
      Recording env w (.blacklistOrganizer o reason) c

/-- The call may change the blacklist. -/
def Op.bans : Op → Bool
  | .blacklistOrganizer .. | .removeFromBlacklist .. => true
  | _ => false

/-- The call may change the admins or their proposals. -/
def Op.governs : Op → Bool
  | .initializeRegistry .. | .setPlatformFee .. | .proposeAdmin .. | .acceptAdmin
  | .cancelAdminProposal | .proposeParameterChange .. | .approveProposal .. | .executeProposal ..
  | .cancelProposal .. | .cleanupExpiredProposals => true
  | _ => false

theorem Op.records_of_governs {op : Op} (h : op.governs = true) : op.records = false := by
  cases op <;> first | rfl | cases h

/-- Only the calls that are about them touch the blacklist, and the admins with the flag that
the contract is initialized. -/
structure Leaves (op : Op) (w w' : World) : Prop where
  blacklist : op.bans = false → w'.blacklist = w.blacklist
  multisig : op.governs = false → w'.multisig = w.multisig
  initialized : op.governs = false → w'.config.initialized = w.config.initialized

theorem Leaves.of_same {op : Op} {w w' : World} (hb : w'.blacklist = w.blacklist)
    (hm : w'.multisig = w.multisig) (hi : w'.config.initialized = w.config.initialized) :
    Leaves op w w' :=
  ⟨fun _ => hb, fun _ => hm, fun _ => hi⟩

/-! ## Reading a call backwards -/

section Inversion

variable {env : Env host} {w w' : World} {op : Op} {e tierId : String} {eventInfo : EventInfo}
  {quantity : Nat}

theorem updateEvent_recording {old new : EventInfo} {v : World} (h : v.updateEvent new = .ok w')
    (stored : w.catalog.event e = some old) (edited : Edit env w old op e new)
    (hc : v.catalog = w.catalog) (hb : v.blacklist = w.blacklist) (hm : v.multisig = w.multisig)
    (hi : v.config.initialized = w.config.initialized) :
    Recording env w op w'.catalog ∧ Leaves op w w' := by
  obtain ⟨c, hwritten, rfl⟩ := World.updateEvent_eq_ok.mp h
  rw [hc] at hwritten
  exact ⟨.edit stored edited hwritten, .of_same hb hm hi⟩

theorem same_recording (hop : op.records = false) :
    Recording env w op w.catalog ∧ Leaves op w w :=
  ⟨.same hop, .of_same rfl rfl rfl⟩

theorem checkSupply_eq_ok {u : Unit} (h : checkSupply eventInfo quantity = .ok u) :
    0 < eventInfo.maxSupply → eventInfo.currentSupply + quantity ≤ eventInfo.maxSupply := by
  intro hmax
  simp only [checkSupply, hmax, if_true, bind_eq_ok, checked_eq_ok, checkedAdd_eq_some,
    ensure_eq_ok] at h
  obtain ⟨_, ⟨-, rfl⟩, hle⟩ := h
  exact hle

theorem registerEvent_recording {a : EventRegistrationArgs}
    (h : registerEvent env w a = .ok w') :
    Recording env w (.registerEvent a) w'.catalog ∧ Leaves (.registerEvent a) w w' := by
  simp only [registerEvent, bind_eq_ok, ensure_eq_ok, pure_eq_ok] at h
  obtain ⟨_, -, _, -, _, hclear, _, -, _, -, _, hfree, _, -, _, -, _, -, _, -, c, hc, rfl⟩ := h
  exact ⟨.register hfree hclear hc, .of_same rfl rfl rfl⟩

theorem storeEvent_recording {info : EventInfo} (h : storeEvent env w info = .ok w') :
    Recording env w (.storeEvent info) w'.catalog ∧ Leaves (.storeEvent info) w w' := by
  simp only [storeEvent, bind_eq_ok, unwrap_eq_ok, requireOrganizer_eq_ok, pure_eq_ok] at h
  obtain ⟨_, ⟨⟨old, hold, howner⟩, -⟩, _, -, _, -, c, hc, rfl⟩ := h
  exact ⟨.store hold howner hc, .of_same rfl rfl rfl⟩

theorem updateEventStatus_recording {b : Bool} (h : updateEventStatus env w e b = .ok w') :
    Recording env w (.updateEventStatus e b) w'.catalog ∧ Leaves (.updateEventStatus e b) w w' := by
  simp only [updateEventStatus, bind_eq_ok, getEvent_eq_ok, ensure_eq_ok] at h
  obtain ⟨old, hold, _, -, _, hlive, h⟩ := h
  split at h
  · rename_i hsame
    obtain rfl := pure_eq_ok.mp h
    exact ⟨.settled hold hsame, .of_same rfl rfl rfl⟩
  · rename_i hchanged
    exact updateEvent_recording h hold (.status hlive hchanged) rfl rfl rfl rfl

theorem archiveEvent_recording (h : archiveEvent env w e = .ok w') :
    Recording env w (.archiveEvent e) w'.catalog ∧ Leaves (.archiveEvent e) w w' := by
  simp only [archiveEvent, bind_eq_ok, getEvent_eq_ok, ensure_eq_ok, pure_eq_ok] at h
  obtain ⟨old, hold, _, -, _, hidle, _, -, rfl⟩ := h
  exact ⟨.archive hold hidle, .of_same rfl rfl rfl⟩

theorem incrementInventory_recording {user token : Address}
    (h : incrementInventory env w e tierId user quantity token = .ok w') :
    Recording env w (.incrementInventory e tierId user quantity token) w'.catalog ∧
      Leaves (.incrementInventory e tierId user quantity token) w w' := by
  simp only [incrementInventory, bind_eq_ok, getEvent_eq_ok, ensure_eq_ok, okOr_eq_ok,
    checked_eq_ok, checkedAdd_eq_some] at h
  obtain ⟨_, -, _, -, old, hold, _, hlive, _, -, _, hsupply, tier, htier, _, ⟨-, rfl⟩, _, hwithin,
    _, -, _, ⟨-, rfl⟩, h⟩ := h
  exact updateEvent_recording h hold
    (.increment hlive.1 ⟨htier, hwithin, checkSupply_eq_ok hsupply⟩) rfl rfl rfl rfl

theorem mintCrossChainTicket_recording {chain : Nat} {hash : Bytes32} {recipient : Address}
    {signatures : List Bytes}
    (h : mintCrossChainTicket w chain hash recipient tierId signatures e quantity = .ok w') :
    Recording env w (.mintCrossChainTicket chain hash recipient tierId signatures e quantity)
        w'.catalog ∧
      Leaves (.mintCrossChainTicket chain hash recipient tierId signatures e quantity) w w' := by
  simp only [mintCrossChainTicket, executeTeleportMint, bind_eq_ok, getEvent_eq_ok, ensure_eq_ok,
    okOr_eq_ok, checked_eq_ok, checkedAdd_eq_some] at h
  obtain ⟨_, -, _, -, _, -, old, hold, _, hlive, _, hsupply, tier, htier, _, ⟨-, rfl⟩, _, hwithin,
    _, ⟨-, rfl⟩, h⟩ := h
  exact updateEvent_recording h hold (.mint hlive.1 ⟨htier, hwithin, checkSupply_eq_ok hsupply⟩)
    rfl rfl rfl rfl

theorem decrementInventory_recording (h : decrementInventory env w e tierId = .ok w') :
    Recording env w (.decrementInventory e tierId) w'.catalog ∧
      Leaves (.decrementInventory e tierId) w w' := by
  simp only [decrementInventory, bind_eq_ok, getEvent_eq_ok, ensure_eq_ok, okOr_eq_ok,
    checkedSub_eq_some] at h
  obtain ⟨_, -, old, hold, tier, htier, _, hsold, _, ⟨-, rfl⟩, _, -, _, ⟨-, rfl⟩, h⟩ := h
  exact updateEvent_recording h hold (.decrement htier hsold) rfl rfl rfl rfl

theorem blacklistOrganizer_recording {o : Address} {reason : String}
    (h : blacklistOrganizer env w o reason = .ok w') :
    Recording env w (.blacklistOrganizer o reason) w'.catalog ∧
      Leaves (.blacklistOrganizer o reason) w w' := by
  simp only [blacklistOrganizer, bind_eq_ok] at h
  obtain ⟨_, -, _, -, h⟩ := h
  split at h
  · rename_i hlisted
    obtain rfl := pure_eq_ok.mp h
    exact ⟨.banned hlisted, .of_same rfl rfl rfl⟩
  · rename_i hlisted
    simp only [bind_eq_ok, pure_eq_ok] at h
    obtain ⟨c, hc, rfl⟩ := h
    refine ⟨.sweep (by simpa using hlisted) hc, ?_, fun _ => rfl, fun _ => rfl⟩
    intro hno
    cases hno

/-- The call changes neither the catalog nor what `Leaves` watches. -/
structure Idle (w w' : World) : Prop where
  catalog : w'.catalog = w.catalog
  blacklist : w'.blacklist = w.blacklist
  multisig : w'.multisig = w.multisig
  initialized : w'.config.initialized = w.config.initialized

theorem Idle.recording (hop : op.records = false) (h : Idle w w') :
    Recording env w op w'.catalog ∧ Leaves op w w' := by
  rw [h.catalog]
  exact ⟨.same hop, .of_same h.blacklist h.multisig h.initialized⟩

theorem members_idle (h : call env w op = .ok w') (hop : op.records = false)
    (hgov : op.governs = false) (hban : op.bans = false)
    (hmeta : ∀ e c, op ≠ .updateMetadata e c) (hfeed : ∀ e c, op ≠ .setFeedbackCid e c) :
    Idle w w' := by
  cases op
  case updateMetadata e c => exact absurd rfl (hmeta e c)
  case setFeedbackCid e c => exact absurd rfl (hfeed e c)
  all_goals first | (cases hop; done) | (cases hgov; done) | (cases hban; done) | skip
  case claimStakerRewards =>
    obtain ⟨_, h⟩ := snd_map_eq_ok.mp h
    repeat obtain ⟨_, h⟩ := ok_of_bind h
    obtain ⟨-, rfl⟩ := Prod.mk.inj (pure_eq_ok.mp h)
    exact ⟨rfl, rfl, rfl, rfl⟩
  all_goals
    repeat obtain ⟨_, h⟩ := ok_of_bind h
    obtain rfl := pure_eq_ok.mp h
    exact ⟨rfl, rfl, rfl, rfl⟩

theorem applyChange_frame {config : MultiSigConfig} {change : ParameterChange} :
    (applyChange w config change).catalog = w.catalog ∧
      (applyChange w config change).blacklist = w.blacklist := by
  cases change <;> exact ⟨rfl, rfl⟩

theorem governs_frame (h : call env w op = .ok w') (hop : op.governs = true) :
    w'.catalog = w.catalog ∧ w'.blacklist = w.blacklist := by
  cases op
  all_goals first | (cases hop; done) | skip
  case proposeParameterChange =>
    obtain ⟨_, h⟩ := snd_map_eq_ok.mp h
    repeat obtain ⟨_, h⟩ := ok_of_bind h
    obtain ⟨-, rfl⟩ := Prod.mk.inj (pure_eq_ok.mp h)
    exact ⟨rfl, rfl⟩
  case cleanupExpiredProposals =>
    obtain ⟨_, h⟩ := snd_map_eq_ok.mp h
    obtain ⟨_, h⟩ := ok_of_bind h
    obtain ⟨-, rfl⟩ := Prod.mk.inj (pure_eq_ok.mp h)
    exact ⟨rfl, rfl⟩
  case executeProposal =>
    repeat obtain ⟨_, h⟩ := ok_of_bind h
    obtain rfl := pure_eq_ok.mp h
    exact applyChange_frame
  case approveProposal =>
    repeat obtain ⟨_, h⟩ := ok_of_bind h
    split at h <;> obtain rfl := pure_eq_ok.mp h <;> exact ⟨rfl, rfl⟩
  case setPlatformFee =>
    repeat obtain ⟨_, h⟩ := ok_of_bind h
    split at h
    · repeat obtain ⟨_, h⟩ := ok_of_bind h
      obtain rfl := pure_eq_ok.mp h
      exact ⟨rfl, rfl⟩
    · obtain rfl := pure_eq_ok.mp h
      exact ⟨rfl, rfl⟩
  all_goals
    repeat obtain ⟨_, h⟩ := ok_of_bind h
    obtain rfl := pure_eq_ok.mp h
    exact ⟨rfl, rfl⟩

/-- **What a call writes.** -/
theorem call_recording (h : call env w op = .ok w') :
    Recording env w op w'.catalog ∧ Leaves op w w' := by
  by_cases hgov : op.governs = true
  · obtain ⟨hc, hb⟩ := governs_frame h hgov
    rw [hc]
    exact ⟨.same (Op.records_of_governs hgov), fun _ => hb, by simp [hgov], by simp [hgov]⟩
  cases op
  case registerEvent => exact registerEvent_recording h
  case storeEvent => exact storeEvent_recording h
  case updateEventStatus => exact updateEventStatus_recording h
  case archiveEvent => exact archiveEvent_recording h
  case incrementInventory => exact incrementInventory_recording h
  case decrementInventory => exact decrementInventory_recording h
  case mintCrossChainTicket => exact mintCrossChainTicket_recording h
  case blacklistOrganizer => exact blacklistOrganizer_recording h
  case cancelEvent =>
    simp only [call, cancelEvent, bind_eq_ok, getEvent_eq_ok] at h
    obtain ⟨old, hold, _, -, _, -, h⟩ := h
    exact updateEvent_recording h hold .cancel rfl rfl rfl rfl
  case setResaleCapBps =>
    simp only [call, setResaleCapBps, bind_eq_ok, getEvent_eq_ok] at h
    obtain ⟨old, hold, _, -, _, -, h⟩ := h
    exact updateEvent_recording h hold .resaleCap rfl rfl rfl rfl
  case postponeEvent =>
    simp only [call, postponeEvent, bind_eq_ok, getEvent_eq_ok] at h
    obtain ⟨old, hold, _, -, _, -, _, -, h⟩ := h
    exact updateEvent_recording h hold .postpone rfl rfl rfl rfl
  case setCustomEventFee =>
    simp only [call, setCustomEventFee, bind_eq_ok, getEvent_eq_ok, requireAdmin_eq_ok] at h
    obtain ⟨_, ⟨hadmin, hsigned⟩, _, -, old, hold, h⟩ := h
    exact updateEvent_recording h hold (.customFee hadmin hsigned) rfl rfl rfl rfl
  case addTier =>
    simp only [call, addTier, bind_eq_ok, getEvent_eq_ok] at h
    obtain ⟨old, hold, _, -, _, -, _, -, _, -, h⟩ := h
    exact updateEvent_recording h hold .addTier rfl rfl rfl rfl
  case deactivateTier =>
    simp only [call, deactivateTier, bind_eq_ok, getEvent_eq_ok, okOr_eq_ok] at h
    obtain ⟨old, hold, _, -, tier, htier, h⟩ := h
    exact updateEvent_recording h hold (.deactivateTier htier) rfl rfl rfl rfl
  case updateMetadata =>
    simp only [call, updateMetadata, bind_eq_ok, getEvent_eq_ok] at h
    obtain ⟨old, hold, _, -, _, -, h⟩ := h
    split at h
    · obtain rfl := pure_eq_ok.mp h
      exact same_recording rfl
    · exact updateEvent_recording h hold .metadata rfl rfl rfl rfl
  case setFeedbackCid =>
    simp only [call, setFeedbackCid, bind_eq_ok, getEvent_eq_ok] at h
    obtain ⟨old, hold, _, -, _, -, _, -, h⟩ := h
    split at h
    · obtain rfl := pure_eq_ok.mp h
      exact same_recording rfl
    · exact updateEvent_recording h hold .feedback rfl rfl rfl rfl
  case removeFromBlacklist =>
    repeat obtain ⟨_, h⟩ := ok_of_bind h
    obtain rfl := pure_eq_ok.mp h
    exact ⟨.same rfl, by simp [Op.bans], fun _ => rfl, fun _ => rfl⟩
  all_goals first
    | exact absurd rfl hgov
    | exact (members_idle h rfl rfl rfl (by simp) (by simp)).recording rfl

end Inversion

/-! ## The table of events -/

section Table

variable {env : Env host} {w w' : World} {op : Op} {e : String} {c c' : Catalog}
  {info old new : EventInfo}

/-- Every record is stored under its own id. -/
def Catalog.Keyed (c : Catalog) : Prop := ∀ id info, c.event id = some info → info.eventId = id

theorem Catalog.updateEvent_eq_ok : c.updateEvent info = .ok c' ↔
    ∃ n, syncActiveEventCount c.globalActiveEventCount (c.event info.eventId) info = .ok n ∧
      c' = { c with
        globalActiveEventCount := n
        event := update c.event info.eventId (some info) } := by
  simp only [Catalog.updateEvent, bind_eq_ok, pure_eq_ok]
  exact exists_congr fun n => and_congr_right fun _ => eq_comm

theorem Catalog.updateEvent_event (h : c.updateEvent info = .ok c') :
    c'.event = update c.event info.eventId (some info) := by
  obtain ⟨n, -, rfl⟩ := updateEvent_eq_ok.mp h
  rfl

theorem Catalog.addToOrganizerIndex_frame {o : Address} {id : String} {b : Bool}
    (h : c.addToOrganizerIndex o id b = .ok c') :
    c'.event = c.event ∧ c'.globalActiveEventCount = c.globalActiveEventCount := by
  obtain ⟨_, h⟩ := ok_of_bind h
  split at h
  · obtain rfl := pure_eq_ok.mp h
    exact ⟨rfl, rfl⟩
  · obtain ⟨_, h⟩ := ok_of_bind h
    obtain rfl := pure_eq_ok.mp h
    exact ⟨rfl, rfl⟩

theorem Catalog.storeEvent_updates (h : c.storeEvent info = .ok c') :
    ∃ c₁, c.updateEvent info = .ok c₁ ∧ c'.event = c₁.event ∧
      c'.globalActiveEventCount = c₁.globalActiveEventCount := by
  simp only [Catalog.storeEvent, bind_eq_ok] at h
  obtain ⟨c₁, h₁, h⟩ := h
  refine ⟨c₁, h₁, ?_⟩
  split at h
  · obtain rfl := pure_eq_ok.mp h
    exact ⟨rfl, rfl⟩
  · exact addToOrganizerIndex_frame h

theorem Catalog.storeEvent_event (h : c.storeEvent info = .ok c') :
    c'.event = update c.event info.eventId (some info) := by
  obtain ⟨c₁, h₁, hevent, -⟩ := storeEvent_updates h
  rw [hevent, updateEvent_event h₁]

theorem Catalog.removeFromOrganizerIndex_frame {o : Address} {id : String} :
    (c.removeFromOrganizerIndex o id).event = c.event ∧
      (c.removeFromOrganizerIndex o id).globalActiveEventCount = c.globalActiveEventCount := by
  unfold Catalog.removeFromOrganizerIndex
  dsimp only
  split <;> exact ⟨rfl, rfl⟩

theorem Catalog.removeEvent_event (h : c.event e = some info) :
    (c.removeEvent e).event = update c.event e none := by
  unfold Catalog.removeEvent
  simp only [h]
  exact removeFromOrganizerIndex_frame.1

/-- The records after a sweep: those of the swept ids are inactive. -/
def swept (ids : List String) (id : String) (o : Option EventInfo) : Option EventInfo :=
  if id ∈ ids then o.map fun info => { info with isActive := false } else o

theorem suspendOne_event (hk : c.Keyed) (h : suspendOne c e = .ok c') (id : String) :
    c'.event id = swept [e] id (c.event id) := by
  unfold suspendOne at h
  unfold swept
  split at h
  · rename_i hnone
    obtain rfl := pure_eq_ok.mp h
    by_cases hid : id = e
    · subst hid; simp [hnone]
    · simp [hid]
  · rename_i info hsome
    have hkey := hk e info hsome
    split at h
    · rw [Catalog.storeEvent_event h]
      by_cases hid : id = e
      · subst hid; simp [hkey, hsome]
      · simp [hid, hkey]
    · rename_i hidle
      obtain rfl := pure_eq_ok.mp h
      by_cases hid : id = e
      · subst hid
        have : info.isActive = false := by simpa using hidle
        simp [hsome, ← this]
      · simp [hid]

theorem Catalog.Keyed.of_swept {ids : List String} (hk : c.Keyed)
    (h : ∀ id, c'.event id = swept ids id (c.event id)) : c'.Keyed := by
  intro id info hinfo
  rw [h id] at hinfo
  unfold swept at hinfo
  split at hinfo
  · obtain ⟨old, hold, rfl⟩ := Option.map_eq_some_iff.mp hinfo
    exact hk id old hold
  · exact hk id info hinfo

/-- The sweep over a list of ids, by induction over the list. -/
theorem suspendAll_event {ids : List String} (hk : c.Keyed)
    (h : ids.foldlM suspendOne c = .ok c') (id : String) :
    c'.event id = swept ids id (c.event id) := by
  induction ids generalizing c with
  | nil =>
    obtain rfl := pure_eq_ok.mp h
    simp [swept]
  | cons e ids ih =>
    simp only [List.foldlM_cons, bind_eq_ok] at h
    obtain ⟨c₁, h₁, h⟩ := h
    have hstep := suspendOne_event hk h₁
    rw [ih (hk.of_swept hstep) h, hstep]
    by_cases he : id = e <;> by_cases hids : id ∈ ids <;> simp [swept, he, hids, Function.comp_def]

/-- **Sweep rule.** What storing a suspended record keeps, the whole sweep keeps. -/
theorem suspendAll_inv {I : Catalog → Prop}
    (hI : ∀ c c' (old : EventInfo), I c → c.event old.eventId = some old →
      c.storeEvent { old with isActive := false } = .ok c' → I c')
    {ids : List String} (hk : c.Keyed) (h : I c) (hw : ids.foldlM suspendOne c = .ok c') :
    I c' := by
  induction ids generalizing c with
  | nil =>
    obtain rfl := pure_eq_ok.mp hw
    exact h
  | cons e ids ih =>
    simp only [List.foldlM_cons, bind_eq_ok] at hw
    obtain ⟨c₁, h₁, hw⟩ := hw
    refine ih (hk.of_swept (suspendOne_event hk h₁)) ?_ hw
    unfold suspendOne at h₁
    split at h₁
    · obtain rfl := pure_eq_ok.mp h₁
      exact h
    · rename_i old hold
      split at h₁
      · have hkey : c.event old.eventId = some old := (hk e old hold).symm ▸ hold
        exact hI c c₁ old h hkey h₁
      · obtain rfl := pure_eq_ok.mp h₁
        exact h

end Table

/-! ## What becomes of one record -/

/-- What a successful call does to the record under the id `e`. -/
inductive Fate (env : Env host) (w : World) : Op → String → Option EventInfo → Option EventInfo →
    Prop where
  | kept {op : Op} {e : String} {o : Option EventInfo} : Fate env w op e o o
  | registered {a : EventRegistrationArgs}
      (cleared : w.blacklist.blacklisted a.organizerAddress = false) :
      Fate env w (.registerEvent a) a.eventId none
        (some (a.event w.config.platformFee env.timestamp))
  | stored {info old : EventInfo} (owner : old.organizerAddress = info.organizerAddress) :
      Fate env w (.storeEvent info) info.eventId (some old) (some info)
  | edited {op : Op} {e : String} {old new : EventInfo} (edit : Edit env w old op e new) :
      Fate env w op e (some old) (some new)
  | archived {e : String} {old : EventInfo} (idle : old.isActive = false) :
      Fate env w (.archiveEvent e) e (some old) none
  | suspended {o : Address} {reason e : String} {old : EventInfo} :
      Fate env w (.blacklistOrganizer o reason) e (some old)
        (some { old with isActive := false })

section Fates

variable {env : Env host} {w w' : World} {op : Op} {e : String} {c : Catalog}
  {info old new : EventInfo}

theorem Edit.eventId_eq (h : Edit env w old op e new) : new.eventId = old.eventId := by
  cases h <;> rfl

theorem Edit.organizer_eq (h : Edit env w old op e new) :
    new.organizerAddress = old.organizerAddress := by
  cases h <;> rfl

/-- A record written over a table leaves every other record. -/
theorem Fate.of_update {tab : String → Option EventInfo} {o : Option EventInfo} {k : String}
    (h : Fate env w op k (tab k) o) : Fate env w op e (tab e) (update tab k o e) := by
  by_cases he : e = k
  · subst he; simpa using h
  · rw [update_of_ne he]; exact .kept

/-- **The fate of each record.** -/
theorem Recording.fate (hk : w.catalog.Keyed) (h : Recording env w op c) (e : String) :
    Fate env w op e (w.catalog.event e) (c.event e) := by
  cases h with
  | same | settled | banned => exact .kept
  | register free cleared written =>
    rw [Catalog.storeEvent_event written]
    exact .of_update (by rw [EventRegistrationArgs.event, free]; exact .registered cleared)
  | store stored owner written =>
    rw [Catalog.storeEvent_event written]
    exact .of_update (by rw [stored]; exact .stored owner)
  | edit stored edited written =>
    have hkey := edited.eventId_eq.trans (hk _ _ stored)
    rw [Catalog.updateEvent_event written, hkey]
    exact .of_update (by rw [stored]; exact .edited edited)
  | archive stored idle =>
    rw [Catalog.removeEvent_event stored]
    exact .of_update (by rw [stored]; exact .archived idle)
  | sweep isNew written =>
    rw [suspendAll_event hk written]
    unfold swept
    split
    · cases w.catalog.event e with
      | none => exact .kept
      | some old => exact .suspended
    · exact .kept

theorem Recording.keyed (hk : w.catalog.Keyed) (h : Recording env w op c) : c.Keyed := by
  intro id info hinfo
  have hfate := h.fate hk id
  rw [hinfo] at hfate
  generalize hold : w.catalog.event id = o at hfate
  cases hfate with
  | kept => exact hk id info hold
  | registered => rfl
  | stored => rfl
  | edited edit => exact edit.eventId_eq.trans (hk id _ hold)
  | @suspended _ _ _ old => exact hk id old hold

/-! What the writers that take whole records or tiers leave behind. -/

theorem Recording.register_written {a : EventRegistrationArgs}
    (h : Recording env w (.registerEvent a) c) :
    w.catalog.event a.eventId = none ∧
      c.event a.eventId = some (a.event w.config.platformFee env.timestamp) := by
  cases h with
  | same idle => cases idle
  | edit _ edited => cases edited
  | register free _ written =>
    rw [Catalog.storeEvent_event written]
    exact ⟨free, update_self _ _ _⟩

theorem Recording.store_written (h : Recording env w (.storeEvent info) c) :
    c.event info.eventId = some info := by
  cases h with
  | same idle => cases idle
  | edit _ edited => cases edited
  | store _ _ written =>
    rw [Catalog.storeEvent_event written]
    exact update_self _ _ _

theorem Recording.addTier_written {tierId : String} {tier : TicketTier} (hk : w.catalog.Keyed)
    (h : Recording env w (.addTier e tierId tier) c) :
    ∃ old, w.catalog.event e = some old ∧
      c.event e = some { old with tiers := old.tiers.set tierId tier } := by
  cases h with
  | same idle => cases idle
  | edit stored edited written =>
    cases edited
    refine ⟨_, stored, ?_⟩
    rw [Catalog.updateEvent_event written, ← hk _ _ stored]
    exact update_self _ _ _

theorem Recording.cancel_written {reason : Option String} (hk : w.catalog.Keyed)
    (h : Recording env w (.cancelEvent e reason) c) :
    ∃ old, w.catalog.event e = some old ∧ c.event e = some
      { old with status := .cancelled, isActive := false, cancellationReason := reason } := by
  cases h with
  | same idle => cases idle
  | edit stored edited written =>
    cases edited
    refine ⟨_, stored, ?_⟩
    rw [Catalog.updateEvent_event written, ← hk _ _ stored]
    exact update_self _ _ _

/-- The record after a change of the flag, also if it had the flag. -/
theorem Recording.status_written {b : Bool} (hk : w.catalog.Keyed)
    (h : Recording env w (.updateEventStatus e b) c) (hold : w.catalog.event e = some old) :
    c.event e = some { old with isActive := b } ∧
      (old.isActive = b ∨ old.status ≠ .cancelled) := by
  cases h with
  | same idle => cases idle
  | settled stored already =>
    obtain rfl := Option.some.inj (hold.symm.trans stored)
    subst already
    exact ⟨hold, .inl rfl⟩
  | edit stored edited written =>
    cases edited with
    | status live =>
      obtain rfl := Option.some.inj (hold.symm.trans stored)
      refine ⟨?_, .inr live⟩
      rw [Catalog.updateEvent_event written, ← hk _ _ stored]
      exact update_self _ _ _

end Fates

/-! ## Steps -/

/-- A condition on the calls; other steps meet it. -/
def OnCalls (C : World → Op → Prop) (w : World) : Step host → Prop
  | .call _ op => C w op
  | _ => True

section Steps

variable {w w' : World} {a : Step host}

theorem step_outside (h : step w a = .ok w') (ha : ∀ env op, a ≠ .call env op) : Idle w w' := by
  cases a with
  | call env op => exact absurd rfl (ha env op)
  | outside => obtain rfl := pure_eq_ok.mp h; exact ⟨rfl, rfl, rfl, rfl⟩
  | configureBridge => obtain rfl := pure_eq_ok.mp h; exact ⟨rfl, rfl, rfl, rfl⟩

theorem step_recording {env : Env host} {op : Op} (h : step w (.call env op) = .ok w') :
    Recording env w op w'.catalog ∧ Leaves op w w' := by
  have hcall : call env w op = .ok w' := h
  exact call_recording hcall

/-- A step is a call that records, or none and touches nothing of the registry. -/
theorem step_cases (h : step w a = .ok w') :
    (∃ env op, a = .call env op ∧ Recording env w op w'.catalog ∧ Leaves op w w') ∨
      Idle w w' ∧ ∀ env op, a ≠ .call env op := by
  cases a with
  | call env op => exact .inl ⟨env, op, rfl, step_recording h⟩
  | outside => exact .inr ⟨step_outside h (by simp), by simp⟩
  | configureBridge => exact .inr ⟨step_outside h (by simp), by simp⟩

theorem step_keyed (hk : w.catalog.Keyed) (h : step w a = .ok w') : w'.catalog.Keyed := by
  rcases step_cases h with ⟨env, op, -, hrec, -⟩ | ⟨hidle, -⟩
  · exact hrec.keyed hk
  · rw [hidle.catalog]; exact hk

theorem step_record {e : String} {new : EventInfo} (hk : w.catalog.Keyed) (h : step w a = .ok w')
    (hnew : w'.catalog.event e = some new) :
    w.catalog.event e = some new ∨
      ∃ env op, a = .call env op ∧ Fate env w op e (w.catalog.event e) (some new) := by
  rcases step_cases h with ⟨env, op, ha, hrec, -⟩ | ⟨hidle, -⟩
  · right
    exact ⟨env, op, ha, hnew ▸ hrec.fate hk e⟩
  · left
    rw [← hidle.catalog]
    exact hnew

theorem Fresh.keyed (h : Fresh host w) : w.catalog.Keyed := by
  obtain ⟨_, -, rfl⟩ := h
  intro id info hinfo
  cases hinfo

theorem run_keyed {steps : List (Step host)} (h : Fresh host w) :
    (run step w steps).catalog.Keyed :=
  Along.inv (I := fun w => w.catalog.Keyed) (fun _ _ _ hk _ hok => step_keyed hk hok)
    Along.trivial h.keyed

/-- A condition on calls, from what a successful call shows. -/
theorem onCalls_of_step {C : World → Op → Prop} (h : step w a = .ok w')
    (hC : ∀ (env : Env host) (op : Op), call env w op = .ok w' → C w op) : OnCalls C w a := by
  cases a with
  | call env op => exact hC env op h
  | outside => exact True.intro
  | configureBridge => exact True.intro

/-- **Exact conditions for the catalog.** As `Along.iff_forall_prefix`, with the records under
their own ids. -/
theorem catalog_iff {I P : World → Prop} {C : World → Op → Prop} {steps : List (Step host)}
    (hkeep : ∀ w (a : Step host) w', w.catalog.Keyed → I w → OnCalls C w a →
      step w a = .ok w' → I w')
    (hP : ∀ w, I w → P w)
    (hneed : ∀ w (a : Step host) w', w.catalog.Keyed → I w → step w a = .ok w' → P w' →
      OnCalls C w a)
    (hw : Fresh host w) (hI : I w) :
    (∀ pre, pre <+: steps → P (run step w pre)) ↔ Along step (OnCalls C) w steps :=
  Along.iff_forall_prefix (I := fun w => w.catalog.Keyed ∧ I w)
    (fun w a w' h hC hok => ⟨step_keyed h.1 hok, hkeep w a w' h.1 h.2 hC hok⟩)
    (fun w h => hP w h.2) (fun w a w' h hok hP' => hneed w a w' h.1 h.2 hok hP')
    ⟨hw.keyed, hI⟩

end Steps

end Agora.EventRegistry
