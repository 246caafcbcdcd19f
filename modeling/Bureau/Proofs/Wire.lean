import Bureau.Proofs.Calendar.Instant
import Bureau.Proofs.Json.Reader
import Bureau.Wire.Ledger

/-!
# Values are read as they are written

A value is `Faithful` when its JSON form is read back as the value. Currencies, identifiers and
instants within the calendar are, and so are records of them: the windows and keys by which the
journal is listed.
-/

namespace Bureau

/-! ### Bytes and codes -/

namespace Bytes

theorem loop_eq (bytes : ByteArray) (i : Nat) (before : List UInt8) :
    ByteArray.toList.loop bytes i before = before.reverse ++ bytes.data.toList.drop i := by
  induction left : bytes.size - i generalizing i before with
  | zero =>
    rw [ByteArray.toList.loop, if_neg (by omega), List.drop_eq_nil_of_le, List.append_nil]
    change bytes.size ≤ i
    omega
  | succ n ih =>
    have inside : i < bytes.data.toList.length := by
      change i < bytes.size
      omega
    have within : i < bytes.size := inside
    have byte : bytes.get! i = bytes.data.toList[i] := by
      change bytes.data[i]! = _
      rw [getElem!_pos bytes.data i inside, Array.getElem_toList]
    rw [ByteArray.toList.loop, if_pos within, ih (i + 1) _ (by omega), byte,
      List.drop_eq_getElem_cons inside]
    simp

theorem toList_eq (bytes : ByteArray) : bytes.toList = bytes.data.toList := by
  rw [ByteArray.toList, loop_eq]
  simp

theorem toString?_ofString (text : String) : toString? (ofString text) = some text := by
  have same : (⟨(ofString text).toArray⟩ : ByteArray) = text.toUTF8 := by
    rw [ofString, toList_eq]
  rw [toString?, same]
  exact dif_pos text.isValidUTF8

end Bytes

namespace Currency

/-- The codes are written in capital letters without blanks. -/
theorem trimmed_upper : ∀ code ∈ currencyCodes,
    (Text.trimmed code.toList).map Char.toUpper = code.toList := by
  decide +kernel

theorem ofString?_code (c : Currency) : ofString? c.code = some c := by
  rw [ofString?, trimmed_upper c.code c.listed, String.ofList_toList, ofCode?, dif_pos c.listed]

end Currency

/-! ### JSON forms -/

namespace Wire

open Json (Fields record?)

variable {α β γ : Type} [Wire α] [Wire β]

/-- The JSON form of the value is read off its text, and means the value. -/
structure Faithful (a : α) : Prop where
  reads : (encode a).Reads
  decodes : decode (encode a) = .ok a

/-- The compact text of a faithful value means the value. -/
theorem Faithful.decode_compress {a : α} (h : Faithful a) :
    Json.decode (decode (α := α)) (encode a).compress = .ok a := by
  simp only [Json.decode, Json.read_compress h.reads, h.decodes, Except.bind, Option.elim_none]

theorem parsed_string {parse : String → Option γ} {s : String} {c : γ} (h : parse s = some c) :
    Json.parsed parse (.string s) = .ok c := by
  simp [Json.parsed, Json.text, Except.bind, h]

theorem faithful_currency (c : Currency) : Faithful c where
  reads := Json.reads_string _
  decodes := parsed_string (Currency.ofString?_code c)

theorem faithful_txId (txId : TxId) : Faithful txId where
  reads := Json.reads_string _
  decodes := by
    refine parsed_string ?_
    change (Uuid.ofString? txId.uuid.toString).map TxId.mk = some txId
    rw [Uuid.ofString?_toString]
    rfl

theorem faithful_instant {t : Instant} (h : t.Valid) : Faithful t where
  reads := Json.reads_string _
  decodes := parsed_string (Instant.ofString?_toString h)

/-- A record of one field. -/
theorem decodes_field {name : String} {a : α} (h : Faithful a) (f : α → γ) :
    record? ((field name).map f) (.record [(name, encode a)]) = .ok (f a) := by
  simp [Json.record, record?, Json.fillMembers, Fields.map, field, Fields.required, h.decodes,
    Except.map, Except.bind, Json.ended, bind]

/-- A record of two fields. -/
theorem decodes_pair {first second : String} (different : second ≠ first) {a : α} {b : β}
    (ha : Faithful a) (hb : Faithful b) (f : α × β → γ) :
    record? (((field first).pair (field second)).map f)
      (.record [(first, encode a), (second, encode b)]) = .ok (f (a, b)) := by
  simp [Json.record, record?, Json.fillMembers, Fields.map, Fields.pair, field, Fields.required,
    ha.decodes, hb.decodes, different, Except.map, Except.bind, Json.ended, bind]

theorem reads_field {name : String} {a : Json} (h : a.Reads) : (Json.record [(name, a)]).Reads :=
  Json.reads_record (by simp) (by simpa using h)

theorem reads_pair {first second : String} {a b : Json} (ha : a.Reads) (hb : b.Reads) :
    (Json.record [(first, a), (second, b)]).Reads :=
  Json.reads_record (by simp) (by simpa using ⟨ha, hb⟩)

theorem encode_window (w : Window) :
    encode w = .record [("start", encode w.start), ("end", encode w.stop)] := rfl

theorem decode_window : decode (α := Window) =
    record? (((field "start").pair (field "end")).map fun (start, stop) => ⟨start, stop⟩) := rfl

theorem reads_window (w : Window) : (encode w).Reads :=
  reads_pair (Json.reads_string _) (Json.reads_string _)

theorem faithful_window {w : Window} (start : w.start.Valid) (stop : w.stop.Valid) :
    Faithful w where
  reads := reads_window w
  decodes := by
    rw [encode_window, decode_window]
    exact decodes_pair (by decide) (faithful_instant start) (faithful_instant stop) _

theorem encode_journalKey (k : JournalKey) : encode k =
    .record [("transacted_at", encode k.transactedAt), ("tx_id", encode k.txId)] := rfl

theorem decode_journalKey : decode (α := JournalKey) =
    record? (((field "transacted_at").pair (field "tx_id")).map
      fun (transactedAt, txId) => ⟨transactedAt, txId⟩) := rfl

theorem reads_journalKey (k : JournalKey) : (encode k).Reads :=
  reads_pair (Json.reads_string _) (Json.reads_string _)

theorem faithful_journalKey {k : JournalKey} (h : k.transactedAt.Valid) : Faithful k where
  reads := reads_journalKey k
  decodes := by
    rw [encode_journalKey, decode_journalKey]
    exact decodes_pair (by decide) (faithful_instant h) (faithful_txId k.txId) _

end Wire

end Bureau
