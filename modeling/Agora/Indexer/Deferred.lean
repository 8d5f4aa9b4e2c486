import Agora.Indexer.Pipeline

/-!
# Events that are applied later

`buffer_insert` stores the decoded topic and payload, and `finalize_batch`
decodes what it finds there once more. The functions take any text for XDR that
can be read as such. So a decoded text that happens to be XDR is decoded twice,
and an event that waited in the buffer is not the one that was received.
-/

namespace Agora.Indexer

/-- The text that `normalize_payload` tries to read as XDR. -/
def xdrText : Json → Option String
  | .str s => some s
  | .obj fields => (Json.obj fields).text "xdr"
  | _ => none

/-- The symbol that `decode_topic_symbol` finds in a value. -/
def symbolName : ScVal → Option String
  | .symbol s => some s
  | .vec items => items.findSome? symbolOf
  | _ => none

/-- The XDR reader does not read the empty text, and no value shows its own encoding, which is
longer than any text in it. -/
structure XdrReader (fromXdr : String → Option ScVal) : Prop where
  empty : fromXdr "" = none
  topic : ∀ text v, fromXdr text = some v → symbolName v ≠ some text
  payload : ∀ text v, fromXdr text = some v → xdrText (scvalToJson v) ≠ some text

section Plain

variable (fromXdr : String → Option ScVal)

/-- The symbol that a topic encodes is not itself XDR. -/
def PlainTopic (topic : Option String) : Prop :=
  ∀ raw, topic = some raw → ∀ v, fromXdr raw = some v → ∀ name, symbolName v = some name →
    fromXdr name = none

/-- The payload does not encode text that is itself XDR, alone or under `xdr`. -/
def PlainPayload (value : Json) : Prop :=
  ∀ raw, xdrText value = some raw → ∀ v, fromXdr raw = some v →
    ∀ text, xdrText (scvalToJson v) = some text → fromXdr text = none

end Plain

section Decode

variable {fromXdr : String → Option ScVal}

theorem decodeTopicSymbol_some (raw : String) : decodeTopicSymbol fromXdr (some raw) =
    (fromXdr raw).elim raw fun v => (symbolName v).getD "" := by
  dsimp only [decodeTopicSymbol]
  cases fromXdr raw with
  | none => rfl
  | some v => cases v <;> rfl

theorem normalizePayload_eq (value : Json) : normalizePayload fromXdr value =
    (((xdrText value).bind fromXdr).map scvalToJson).getD value := by
  cases value with
  | str s =>
    simp only [normalizePayload, xdrText, Option.bind_some]
    cases fromXdr s <;> rfl
  | obj fields =>
    simp only [normalizePayload, xdrText]
    cases (Json.obj fields).text "xdr" with
    | none => rfl
    | some s =>
      simp only [Option.bind_some]
      cases fromXdr s <;> rfl
  | _ => rfl

variable (h : XdrReader fromXdr)
include h

/-- **Topics.** The name is decoded to itself exactly if it is not XDR. -/
theorem decodeTopicSymbol_idem_iff (topic : Option String) :
    decodeTopicSymbol fromXdr (some (decodeTopicSymbol fromXdr topic)) =
      decodeTopicSymbol fromXdr topic ↔ PlainTopic fromXdr topic := by
  have hempty : decodeTopicSymbol fromXdr (some "") = "" := by
    rw [decodeTopicSymbol_some, h.empty]
    rfl
  -- a name that is XDR is decoded to another one
  have hname (name : String) :
      decodeTopicSymbol fromXdr (some name) = name ↔ fromXdr name = none := by
    rw [decodeTopicSymbol_some]
    cases hread : fromXdr name with
    | none => simp
    | some v =>
      have hne : name ≠ "" := by
        rintro rfl
        rw [h.empty] at hread
        cases hread
      have htopic := h.topic name v hread
      simp only [Option.elim_some, reduceCtorEq, iff_false]
      cases hsymbol : symbolName v with
      | none => exact hne.symm
      | some s =>
        rw [hsymbol] at htopic
        exact fun heq => htopic (congrArg some heq)
  cases topic with
  | none => simpa [PlainTopic, decodeTopicSymbol] using hempty
  | some raw =>
    simp only [PlainTopic, Option.some.injEq, forall_eq']
    cases hraw : fromXdr raw with
    | none =>
      have hsame : decodeTopicSymbol fromXdr (some raw) = raw := (hname raw).mpr hraw
      rw [hsame, hsame]
      simp
    | some v =>
      rw [decodeTopicSymbol_some raw, hraw, Option.elim_some]
      cases hsymbol : symbolName v with
      | none => simp [hsymbol, hempty]
      | some name => simp [hsymbol, hname]

/-- **Payloads.** What is stored is decoded to itself exactly if it shows no XDR. -/
theorem normalizePayload_idem_iff (value : Json) :
    normalizePayload fromXdr (normalizePayload fromXdr value) = normalizePayload fromXdr value ↔
      PlainPayload fromXdr value := by
  -- a text that is XDR is decoded to another value
  have hshown (v : Json) : normalizePayload fromXdr v = v ↔
      ∀ text, xdrText v = some text → fromXdr text = none := by
    rw [normalizePayload_eq]
    cases htext : xdrText v with
    | none => simp
    | some text =>
      rw [Option.bind_some]
      cases hread : fromXdr text with
      | none => simp [hread]
      | some w =>
        simp only [Option.map_some, Option.getD_some, Option.some.injEq, forall_eq', hread,
          reduceCtorEq, iff_false]
        intro heq
        exact h.payload text w hread (by rw [heq, htext])
  cases hraw : (xdrText value).bind fromXdr with
  | none =>
    have hsame : normalizePayload fromXdr value = value := by
      rw [normalizePayload_eq, hraw]
      rfl
    rw [hsame, hsame]
    refine ⟨fun _ raw hvalue v hread => ?_, fun _ => rfl⟩
    rw [hvalue, Option.bind_some, hread] at hraw
    cases hraw
  | some v =>
    obtain ⟨raw, hvalue, hread⟩ := Option.bind_eq_some_iff.mp hraw
    have hdecoded : normalizePayload fromXdr value = scvalToJson v := by
      rw [normalizePayload_eq, hraw]
      rfl
    rw [hdecoded, hshown]
    constructor
    · rintro hplain raw' hvalue' v' hread' text htext
      obtain rfl := Option.some.inj (hvalue.symm.trans hvalue')
      obtain rfl := Option.some.inj (hread.symm.trans hread')
      exact hplain text htext
    · exact fun hplain => hplain raw hvalue v hread

end Decode

/-- **When a deferred event is the one that was received.** The row that is written on arrival gives
the same kind, name and payload again exactly if neither decoded text is itself XDR. -/
theorem deferred_as_received_iff (σ : Setting) (hxdr : XdrReader σ.fromXdr) (raw : SorobanEvent)
    (latestLedger latestLedger' : Nat) :
    let received := raw.decode σ.fromXdr latestLedger
    let deferred := received.row.decode σ latestLedger'
    (deferred.kind = received.kind ∧ deferred.topicName = received.topicName ∧
        deferred.value = received.value) ↔
      PlainTopic σ.fromXdr raw.topic.head? ∧ PlainPayload σ.fromXdr raw.value := by
  intro received deferred
  have hkind : deferred.topicName = received.topicName → deferred.kind = received.kind :=
    congrArg eventKindForTopic
  rw [← decodeTopicSymbol_idem_iff hxdr, ← normalizePayload_idem_iff hxdr]
  exact ⟨And.right, fun hboth => ⟨hkind hboth.1, hboth⟩⟩

namespace Sample

/-- The XDR reader, as far as it is needed here: a number, a string and a symbol that are
themselves XDR, and what they are read as. -/
def readXdr (text : String) : Option ScVal :=
  if text = "AAAAAAAAAAE=" then some (.bool true)
  else if text = "AAAABQAAAAAAAAAB" then some (.u64 1)
  else if text = "AAAADgAAAAxBQUFBQUFBQUFBRT0=" then some (.string "AAAAAAAAAAE=")
  else if text = "AAAADwAAABBBQUFBQlFBQUFBQUFBQUFC" then some (.symbol "AAAABQAAAAAAAAAB")
  else none

theorem readXdr_eq_some {text : String} {v : ScVal} (h : readXdr text = some v) :
    (text = "AAAAAAAAAAE=" ∧ v = .bool true) ∨ (text = "AAAABQAAAAAAAAAB" ∧ v = .u64 1) ∨
      (text = "AAAADgAAAAxBQUFBQUFBQUFBRT0=" ∧ v = .string "AAAAAAAAAAE=") ∨
      (text = "AAAADwAAABBBQUFBQlFBQUFBQUFBQUFC" ∧ v = .symbol "AAAABQAAAAAAAAAB") := by
  unfold readXdr at h
  split_ifs at h <;> simp_all

theorem readXdr_reader : XdrReader readXdr := by
  refine ⟨by decide, fun text v hread => ?_, fun text v hread => ?_⟩
  all_goals
    rcases readXdr_eq_some hread with ⟨rfl, rfl⟩ | ⟨rfl, rfl⟩ | ⟨rfl, rfl⟩ | ⟨rfl, rfl⟩ <;> decide

def reading : Setting where
  fromXdr := readXdr
  db := ⟨fun _ => none, fun _ => none, fun _ => false⟩
  config := ⟨"payment", "registry", 0, 100, 4⟩
  ledgerOf _ := 1

/-- An event with a plain symbol and a number as its payload. -/
def plain : SorobanEvent := ⟨"a", 1, "payment", ["refund"], .str "AAAABQAAAAAAAAAB"⟩

/-- A string that looks like an encoded flag, under a symbol that looks like a number. -/
def encodedTwice : SorobanEvent :=
  ⟨"a", 1, "payment", ["AAAADwAAABBBQUFBQlFBQUFBQUFBQUFC"],
    .obj [("xdr", .str "AAAADgAAAAxBQUFBQUFBQUFBRT0=")]⟩

end Sample

open Sample in
theorem deferred_as_received_plain :
    ((plain.decode reading.fromXdr 9).row.decode reading 20).value = .num 1 := by
  have hplain : PlainTopic readXdr plain.topic.head? ∧ PlainPayload readXdr plain.value := by
    constructor
    · rintro raw ⟨⟩ v hread
      cases hread
    · rintro raw ⟨⟩ v hread text htext
      obtain rfl : ScVal.u64 1 = v := Option.some.inj hread
      cases htext
  exact ((deferred_as_received_iff reading readXdr_reader plain 9 20).mpr hplain).2.2

open Sample in
/-- The string comes back as a flag, and the name is lost. -/
theorem deferred_decoded_twice :
    (encodedTwice.decode reading.fromXdr 9).topicName = "AAAABQAAAAAAAAAB" ∧
      (encodedTwice.decode reading.fromXdr 9).value = .str "AAAAAAAAAAE=" ∧
      ((encodedTwice.decode reading.fromXdr 9).row.decode reading 20).topicName = "" ∧
      ((encodedTwice.decode reading.fromXdr 9).row.decode reading 20).value = .bool true :=
  ⟨rfl, rfl, rfl, rfl⟩

end Agora.Indexer
