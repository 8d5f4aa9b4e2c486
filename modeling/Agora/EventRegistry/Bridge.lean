import Agora.EventRegistry.Frame
import Agora.EventRegistry.Recording
import Mathlib.Data.List.Nodup

/-!
# Cross-chain mints

A mint is accepted once for the hash of its origin transaction, with at least
as many signatures as the threshold of the bridge. No signature is looked at,
so what they are worth is up to the caller. The signature scheme is a
parameter: `valid r m sig` says that `sig` is a signature of the relayer `r`
over the message `m`.
-/

namespace Agora.EventRegistry

open Lib Function

variable {host : Host}

/-- What the relayers of a bridge sign for a mint. -/
structure MintMessage where
  originChainId : Nat
  originTxHash : Bytes32
  recipient : Address
  eventId : String
  tierId : String
  quantity : Nat

abbrev SignatureScheme := Address → MintMessage → Bytes → Prop

/-- At least as many relayers as the threshold says signed the message. -/
def Authorised (valid : SignatureScheme) (config : BridgeConfig) (m : MintMessage)
    (signatures : List Bytes) : Prop :=
  ∃ rs : List Address, rs.Nodup ∧ config.threshold ≤ rs.length ∧
    ∀ r ∈ rs, r ∈ config.relayerPubkeys ∧ ∃ sig ∈ signatures, valid r m sig

/-- The signatures are those of different relayers. -/
def SignedByRelayers (valid : SignatureScheme) (config : BridgeConfig) (m : MintMessage)
    (signatures : List Bytes) : Prop :=
  ∃ rs : List Address, rs.Nodup ∧ (∀ r ∈ rs, r ∈ config.relayerPubkeys) ∧
    List.Forall₂ (fun r sig => valid r m sig) rs signatures

/-- A mint carries nothing but signatures of different relayers over what it mints. -/
def MintsSigned (valid : SignatureScheme) (w : World) : Op → Prop
  | .mintCrossChainTicket chain hash recipient tier signatures e quantity =>
    ∀ config, w.bridge.bridgeConfig = some config →
      SignedByRelayers valid config ⟨chain, hash, recipient, e, tier, quantity⟩ signatures
  | _ => True

/-- The origin of what the step mints. -/
def mintedIn : World × Step host × World → Option (Nat × Bytes32)
  | (_, .call _ (.mintCrossChainTicket chain hash ..), _) => some (chain, hash)
  | _ => none

section Mints

variable {env : Env host} {w w' : World} {a : Step host} {op : Op} {steps : List (Step host)}
  {chain quantity : Nat} {hash : Bytes32} {recipient : Address} {tier e : String}
  {signatures : List Bytes} {valid : SignatureScheme} {config : BridgeConfig} {m : MintMessage}

theorem mint_bridge
    (h : step w (.call env
      (.mintCrossChainTicket chain hash recipient tier signatures e quantity)) = .ok w') :
    ∃ config, w.bridge.bridgeConfig = some config ∧ config.threshold ≤ signatures.length ∧
      w.bridge.teleport hash = false ∧
      w'.bridge.teleport = update w.bridge.teleport hash true := by
  simp only [step, call, mintCrossChainTicket, bind_eq_ok, ensure_eq_ok, okOr_eq_ok] at h
  obtain ⟨_, hnew, config, hconfig, _, hcount, h⟩ := h
  refine ⟨config, hconfig, hcount, hnew, ?_⟩
  unfold executeTeleportMint World.updateEvent at h
  repeat obtain ⟨_, h⟩ := ok_of_bind h
  obtain rfl := pure_eq_ok.mp h
  rfl

/-- The count of the signatures is enough when all are good. -/
theorem SignedByRelayers.authorised (h : SignedByRelayers valid config m signatures)
    (hcount : config.threshold ≤ signatures.length) : Authorised valid config m signatures := by
  obtain ⟨rs, hnodup, hrelayers, hsigned⟩ := h
  refine ⟨rs, hnodup, by rwa [hsigned.length_eq], fun r hr => ⟨hrelayers r hr, ?_⟩⟩
  obtain ⟨i, hi, rfl⟩ := List.getElem_of_mem hr
  have hlen := hsigned.length_eq
  exact ⟨signatures[i], List.getElem_mem _, (List.forall₂_iff_get.mp hsigned).2 i hi (by omega)⟩

theorem step_teleport (hok : step w a = .ok w') :
    (∃ chain hash, mintedIn (w, a, w') = some (chain, hash) ∧ w.bridge.teleport hash = false ∧
        w'.bridge.teleport = update w.bridge.teleport hash true) ∨
      mintedIn (w, a, w') = none ∧ w'.bridge.teleport = w.bridge.teleport := by
  rcases step_call_or_outside hok with ⟨env, op, rfl, hcall⟩ | ⟨hout, hno⟩
  · by_cases hop : op.mints = false
    · right
      rw [(call_frame hcall).bridge hop]
      cases op <;> first | exact ⟨rfl, rfl⟩ | cases hop
    · cases op
      case mintCrossChainTicket chain hash recipient tier signatures e quantity =>
        obtain ⟨_, -, -, hnew, hmark⟩ := mint_bridge hok
        exact .inl ⟨chain, hash, rfl, hnew, hmark⟩
      all_goals exact absurd rfl hop
  · refine .inr ⟨?_, hout.teleport⟩
    cases a with
    | call env op => exact absurd rfl (hno env op)
    | outside | configureBridge => rfl

/-- The origins of a run are marked, and each was minted once. -/
theorem minted_once (w : World) (steps : List (Step host)) :
    ((history step w steps).filterMap mintedIn).Nodup ∧
      ∀ x ∈ (history step w steps).filterMap mintedIn,
        (run step w steps).bridge.teleport x.2 = true := by
  refine Along.history_inv (I := fun w hist => (hist.filterMap mintedIn).Nodup ∧
    ∀ x ∈ hist.filterMap mintedIn, w.bridge.teleport x.2 = true) ?_ Along.trivial
    ⟨List.nodup_nil, nofun⟩
  rintro w a w' hist ⟨hnodup, hmarked⟩ - hok
  rw [List.filterMap_append, List.filterMap_cons, List.filterMap_nil]
  rcases step_teleport hok with ⟨chain, hash, hmint, hnew, hmark⟩ | ⟨hmint, hsame⟩
  · simp only [hmint]
    have hnot : (chain, hash) ∉ hist.filterMap mintedIn := by
      intro hmem
      rw [hmarked _ hmem] at hnew
      cases hnew
    refine ⟨?_, fun x hx => ?_⟩
    · rw [← List.concat_eq_append]
      exact List.Nodup.concat hnot hnodup
    · rw [hmark]
      rcases List.mem_append.mp hx with hx | hx
      · by_cases hhash : x.2 = hash
        · rw [hhash, update_self]
        · rw [update_of_ne hhash]
          exact hmarked x hx
      · rw [List.mem_singleton.mp hx, update_self]
  · simp only [hmint, List.append_nil]
    rw [hsame]
    exact ⟨hnodup, hmarked⟩

/-- **Mints.** Every origin mints at most once. In a run in which every mint carries signatures of
different relayers only, every mint is authorised. -/
theorem mints_authorised (valid : SignatureScheme) :
    ((history step w steps).filterMap mintedIn).Nodup ∧
      (Along step (OnCalls (MintsSigned valid)) w steps →
        ∀ s env chain hash recipient tier signatures e quantity s',
          (s, .call env (.mintCrossChainTicket chain hash recipient tier signatures e quantity),
            s') ∈ history step w steps →
          ∃ config, s.bridge.bridgeConfig = some config ∧
            Authorised valid config ⟨chain, hash, recipient, e, tier, quantity⟩ signatures) := by
  refine ⟨(minted_once w steps).1, ?_⟩
  intro h s env chain hash recipient tier signatures e quantity s' hmem
  obtain ⟨pre, post, heq, rfl, hok⟩ := exists_of_mem_history hmem
  have hsigned := Along.iff_forall_split.mp h pre _ post s' heq hok
  obtain ⟨config, hconfig, hcount, -⟩ := mint_bridge hok
  exact ⟨config, hconfig, (hsigned config hconfig).authorised hcount⟩

end Mints

namespace Sample

/-- The origin transaction of the mints. -/
def origin : Bytes32 := Vector.replicate 32 1

/-- A string of 32 zero bytes. -/
def dummy : Bytes := List.replicate 32 0

def mint (signature : Bytes) : Step node :=
  byAlice (.mintCrossChainTicket 1 origin alice "hall" [signature] "e1" 1)

/-- A bridge with one relayer, who has to sign. -/
def bridge : BridgeConfig := ⟨[bob], 1, 0⟩

def bridgedRun : List (Step node) := listedRun ++ [.configureBridge bridge]

/-- What the mint is to be signed for. -/
def mintMessage : MintMessage := ⟨1, origin, alice, "e1", "hall", 1⟩

/-- Bob's signature. -/
def signature : Bytes := List.replicate 64 7

/-- The scheme in which Bob signed the message and nobody signed anything else. -/
def bobSigned : SignatureScheme := fun r m sig => r = bob ∧ m = mintMessage ∧ sig = signature

end Sample

open Sample in
theorem mints_authorised_signed :
    ((history step deployed (bridgedRun ++ [mint signature])).filterMap mintedIn).Nodup ∧
      ∃ config, (run step deployed bridgedRun).bridge.bridgeConfig = some config ∧
        Authorised bobSigned config mintMessage [signature] := by
  obtain ⟨w', hok⟩ := exists_of_isOk
    (x := step (run step deployed bridgedRun) (mint signature)) (by decide)
  have hmem := mem_history_concat hok
  refine ⟨(mints_authorised bobSigned).1,
    (mints_authorised bobSigned).2 ?_ _ _ _ _ _ _ _ _ _ _ hmem⟩
  refine ⟨fun _ _ => True.intro, fun _ _ => True.intro, fun _ _ => True.intro,
    fun _ _ config hconfig => ?_, True.intro⟩
  obtain rfl : bridge = config := Option.some.inj hconfig
  exact ⟨[bob], List.nodup_singleton _, by simp [bridge], .cons ⟨rfl, rfl, rfl⟩ .nil⟩

open Sample in
/-- The mint is accepted with a string that no relayer signed with. -/
theorem mint_unauthorised_dummy :
    Fresh node deployed ∧ (run step deployed bridgedRun).bridge.bridgeConfig = some bridge ∧
      (step (run step deployed bridgedRun) (mint dummy)).isOk = true ∧
      ∀ valid : SignatureScheme, (∀ r m, ¬ valid r m dummy) →
        ¬ Authorised valid bridge mintMessage [dummy] := by
  refine ⟨deployed_fresh, by decide, by decide, ?_⟩
  rintro valid hno ⟨rs, -, hcount, hsigned⟩
  obtain ⟨r, hr⟩ := List.exists_mem_of_length_pos (show 0 < rs.length from hcount)
  obtain ⟨-, sig, hsig, hvalid⟩ := hsigned r hr
  rw [List.mem_singleton.mp hsig] at hvalid
  exact hno r _ hvalid

end Agora.EventRegistry
