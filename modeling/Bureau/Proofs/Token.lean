import Bureau.Identity
import Bureau.Proofs.Cipher.Gcm
import Bureau.Proofs.Text.Base64Url
import Bureau.Token

/-!
# Tokens open exactly when they were sealed

Every layer of a token can be undone in one way only: the text, the split into nonce and
ciphertext, the cipher and the byte of the kind. So a text opens as a kind exactly when it is the
text of something sealed as this kind (`TokenCodec.openAs_iff_sealed`), and every other text is
refused in one way.
-/

namespace Bureau

namespace Payload

theorem ofBytes_toBytes {p : Payload} (nonce : p.nonce.length = Gcm.nonceLength)
    (tag : Gcm.tagLength ≤ p.ciphertext.length) : ofBytes p.toBytes = .ok p := by
  have room : ¬ p.toBytes.length < Gcm.nonceLength + Gcm.tagLength := by
    rw [toBytes, List.length_append]
    omega
  rw [ofBytes, if_neg room, toBytes, List.take_left' nonce, List.drop_left' nonce]

theorem toBytes_of_ofBytes {bytes : Bytes} {p : Payload} (h : ofBytes bytes = .ok p) :
    p.toBytes = bytes ∧ p.nonce.length = Gcm.nonceLength := by
  unfold ofBytes at h
  split at h
  · cases h
  · rename_i room
    cases h
    refine ⟨List.take_append_drop _ _, ?_⟩
    rw [List.length_take]
    omega

theorem decrypt_eq_ok_iff {key : Aes256.Key} {aad plaintext : Bytes} {p : Payload} :
    p.decrypt key aad = .ok plaintext ↔ p = encrypt key p.nonce aad plaintext := by
  have same : p.decrypt key aad = .ok plaintext ↔
      Gcm.decrypt? key p.nonce aad p.ciphertext = some plaintext := by
    unfold decrypt
    split <;> simp_all
  rw [same, Gcm.decrypt?_eq_some_iff, encrypt]
  cases p
  simp

end Payload

namespace TokenCodec

variable {codec : TokenCodec} {kind : TokenKind} {token : String} {bytes nonce : Bytes}

theorem decode_encode (length : nonce.length = Gcm.nonceLength) :
    codec.decode (codec.encode nonce bytes) = .ok bytes := by
  have sealed : Payload.ofBytes (Payload.encrypt codec.key nonce aad bytes).toBytes =
      .ok (Payload.encrypt codec.key nonce aad bytes) := by
    refine Payload.ofBytes_toBytes length ?_
    rw [Payload.encrypt, Gcm.length_encrypt]
    omega
  have opened : (Payload.encrypt codec.key nonce aad bytes).decrypt codec.key aad = .ok bytes :=
    Payload.decrypt_eq_ok_iff.2 rfl
  simp only [decode, encode, String.toList_ofList, Text.Base64Url.decode?_encode, sealed]
  simp only [Except.bind, opened]

theorem encode_of_decode (h : codec.decode token = .ok bytes) :
    ∃ nonce : Bytes, nonce.length = Gcm.nonceLength ∧ token = codec.encode nonce bytes := by
  unfold decode at h
  split at h
  · cases h
  · rename_i raw text
    split at h
    · cases h
    · rename_i opened
      cases h
      cases payload : Payload.ofBytes raw with
      | error e => simp [payload, Except.bind] at opened
      | ok p =>
        rw [payload] at opened
        have opened : p.decrypt codec.key aad = .ok bytes := opened
        obtain ⟨wire, length⟩ := Payload.toBytes_of_ofBytes payload
        refine ⟨p.nonce, length, ?_⟩
        rw [encode, ← Payload.decrypt_eq_ok_iff.1 opened, wire,
          ← Text.Base64Url.encode_of_decode? text, String.ofList_toList]

/-- What is sealed as a kind is opened as this kind, whatever the nonce. -/
theorem openAs_sealAs (length : nonce.length = Gcm.nonceLength) :
    codec.openAs kind (codec.sealAs kind nonce bytes) = .ok bytes := by
  simp [openAs, sealAs, decode_encode length]

theorem sealAs_of_openAs (h : codec.openAs kind token = .ok bytes) :
    ∃ nonce : Bytes, nonce.length = Gcm.nonceLength ∧ token = codec.sealAs kind nonce bytes := by
  unfold openAs at h
  split at h
  · rename_i b found opened
    split at h
    · rename_i same
      cases h
      subst same
      exact encode_of_decode opened
    · cases h
  · cases h

theorem byte_injective {a b : TokenKind} (h : a.byte = b.byte) : a = b := by
  cases a <;> cases b <;> first | rfl | exact absurd h (by decide)

/-- What is sealed as a kind is not opened as another. -/
theorem openAs_sealAs_of_ne {other : TokenKind} (different : other ≠ kind)
    (length : nonce.length = Gcm.nonceLength) :
    codec.openAs other (codec.sealAs kind nonce bytes) = .error .refused := by
  have byte : kind.byte ≠ other.byte := fun h => different (byte_injective h).symm
  simp [openAs, sealAs, decode_encode length, byte]

theorem openAs_eq_refused (h : ∀ bytes, codec.openAs kind token ≠ .ok bytes) :
    codec.openAs kind token = .error .refused := by
  cases opened : codec.openAs kind token with
  | error e => rfl
  | ok bytes => exact absurd opened (h bytes)

/-- A text opens as a kind to some bytes exactly when it is the text of a nonce and of the
encryption of the kind's byte and these bytes under it. So what is sealed as a kind opens as this
kind and no other, no two texts carry the same bytes, and every text that was not sealed is refused
in the one way that there is. -/
theorem openAs_iff_sealed (codec : TokenCodec) (kind : TokenKind) (token : String)
    (bytes : Bytes) :
    (codec.openAs kind token = .ok bytes ↔
      ∃ nonce : Bytes, nonce.length = 12 ∧
        token = String.ofList (Text.Base64Url.encode
          (nonce ++ Gcm.encrypt codec.key nonce aad (kind.byte :: bytes)))) ∧
    (∀ nonce : Bytes, nonce.length = 12 →
      codec.openAs kind (codec.sealAs kind nonce bytes) = .ok bytes ∧
      ∀ other, other ≠ kind →
        codec.openAs other (codec.sealAs kind nonce bytes) = .error .refused) ∧
    (∀ (other : String) (raw : Bytes), Text.Base64Url.decode? token.toList = some raw →
      Text.Base64Url.decode? other.toList = some raw → token = other) ∧
    ((∀ bytes nonce : Bytes, nonce.length = 12 → token ≠ codec.sealAs kind nonce bytes) →
      codec.openAs kind token = .error .refused) := by
  refine ⟨⟨sealAs_of_openAs, ?_⟩, fun nonce length => ⟨openAs_sealAs length, ?_⟩, ?_, ?_⟩
  · rintro ⟨nonce, length, rfl⟩
    exact openAs_sealAs length
  · exact fun other different => openAs_sealAs_of_ne different length
  · intro other raw first second
    refine String.toList_injective ?_
    rw [Text.Base64Url.encode_of_decode? first, Text.Base64Url.encode_of_decode? second]
  · intro notSealed
    refine openAs_eq_refused fun bytes opened => ?_
    obtain ⟨nonce, length, rfl⟩ := sealAs_of_openAs opened
    exact notSealed bytes nonce length rfl

/-- One byte, sealed under the zero key and the zero nonce. -/
theorem openAs_iff_sealed_zeros :
    let codec : TokenCodec := ⟨⟨List.replicate 32 0, by decide⟩⟩
    let token := codec.sealAs .offer (List.replicate 12 0) [7]
    codec.openAs .offer token = .ok [7] ∧ codec.openAs .cursor token = .error .refused ∧
      codec.openAs .offer "" = .error .refused := by
  intro codec token
  have length : (List.replicate 12 0 : Bytes).length = 12 := by decide
  obtain ⟨-, opens, -, -⟩ := openAs_iff_sealed codec .offer token [7]
  obtain ⟨-, -, -, refused⟩ := openAs_iff_sealed codec .offer "" [7]
  refine ⟨(opens _ length).1, (opens _ length).2 .cursor (by decide), refused ?_⟩
  intro bytes nonce length same
  have opened : codec.openAs .offer (codec.sealAs .offer nonce bytes) = .ok bytes :=
    openAs_sealAs length
  rw [← same] at opened
  have empty : codec.openAs .offer "" = .error .refused := by rfl
  rw [empty] at opened
  cases opened

end TokenCodec

/-! ### Identifiers in tokens -/

theorem Uuid.ofBytes?_toBytes (u : Uuid) : ofBytes? u.toBytes = some u := by
  have length : u.toBytes.length = 16 := Bytes.length_ofNat 16 u.number
  have number : Bytes.toNat u.toBytes = u.number := Bytes.toNat_ofNat u.number_lt
  rw [ofBytes?, if_pos length, number, ofNat?, dif_pos u.number_lt]

theorem OfferId.ofBytes?_toBytes (id : OfferId) : ofBytes? id.toBytes = some id := by
  rw [ofBytes?, toBytes, Uuid.ofBytes?_toBytes]
  rfl

end Bureau
