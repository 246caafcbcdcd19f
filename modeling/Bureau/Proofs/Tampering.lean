import Bureau.Proofs.Cipher.Tampering
import Bureau.Proofs.Token

/-!
# A token with one wrong bit is refused

The bits of a token are those of its nonce, of its ciphertext and of its tag, and each of the three
is guarded in its own way (`Bureau.Proofs.Cipher.Tampering`). Together they say that no bit of a
token can be changed (`TokenCodec.decode_flip`).
-/

namespace Bureau.TokenCodec

variable {codec : TokenCodec} {nonce bytes : Bytes}

/-- The text of a payload whose tag is not the one of its nonce and ciphertext is refused. -/
theorem decode_eq_refused {ciphertext mark : Bytes} (length : nonce.length = Gcm.nonceLength)
    (markLength : mark.length = Gcm.tagLength)
    (wrong : mark ≠ Gcm.tag codec.key.expand nonce aad ciphertext) :
    codec.decode (String.ofList (Text.Base64Url.encode (nonce ++ (ciphertext ++ mark)))) =
      .error .refused := by
  have payload : Payload.ofBytes (nonce ++ (ciphertext ++ mark)) =
      .ok ⟨nonce, ciphertext ++ mark⟩ := by
    refine Payload.ofBytes_toBytes (p := ⟨nonce, ciphertext ++ mark⟩) length ?_
    rw [List.length_append, markLength]
    omega
  have shut : Payload.decrypt codec.key aad ⟨nonce, ciphertext ++ mark⟩ =
      .error (.decryptionFailed "Decryption failed") := by
    rw [Payload.decrypt, Gcm.decrypt?_eq_none markLength wrong]
  simp only [decode, String.toList_ofList, Text.Base64Url.decode?_encode, payload]
  simp only [Except.bind, shut]

/-- What a token hides: the nonce, the ciphertext and the tag of both. -/
theorem decode?_encode (codec : TokenCodec) (nonce bytes : Bytes) :
    ∃ ciphertext : Bytes, ciphertext.length = bytes.length ∧
      Text.Base64Url.decode? (codec.encode nonce bytes).toList =
        some (nonce ++ (ciphertext ++ Gcm.tag codec.key.expand nonce aad ciphertext)) := by
  refine ⟨_, Gcm.length_xor_keystream codec.key.expand nonce bytes, ?_⟩
  rw [encode, String.toList_ofList, Text.Base64Url.decode?_encode]
  rfl

/-- A token is refused when a single bit of its raw form is changed, be it one of the nonce, of the
ciphertext or of the tag. -/
theorem decode_flip (codec : TokenCodec)
    (key : Gcm.encipher codec.key.expand (List.replicate 16 0) ≠ List.replicate 16 0)
    (nonce bytes : Bytes) (length : nonce.length = 12) :
    ∃ raw, Text.Base64Url.decode? (codec.encode nonce bytes).toList = some raw ∧
      raw.length = 12 + bytes.length + 16 ∧
      ∀ position < 8 * raw.length,
        codec.decode (String.ofList (Text.Base64Url.encode (Bytes.flip raw position))) =
          .error .refused := by
  obtain ⟨ciphertext, same, text⟩ := decode?_encode codec nonce bytes
  have markLength := Gcm.length_tag codec.key.expand nonce aad ciphertext
  have whole : (nonce ++ (ciphertext ++ Gcm.tag codec.key.expand nonce aad ciphertext)).length =
      12 + bytes.length + 16 := by
    rw [List.length_append, List.length_append, length, same, markLength, Nat.add_assoc]
    rfl
  refine ⟨_, text, whole, fun position inside => ?_⟩
  by_cases inNonce : position < 8 * nonce.length
  · rw [Bytes.flip_append_left _ _ inNonce]
    have flipped : (Bytes.flip nonce position).length = Gcm.nonceLength := by
      rw [Bytes.length_flip, length, Gcm.nonceLength]
    refine decode_eq_refused flipped markLength fun tags => ?_
    exact Bytes.flip_ne inNonce (Gcm.nonce_of_tag length flipped tags.symm)
  obtain ⟨i, rfl⟩ := Nat.exists_eq_add_of_le (Nat.le_of_not_lt inNonce)
  rw [Bytes.flip_append_right]
  by_cases inText : i < 8 * ciphertext.length
  · rw [Bytes.flip_append_left _ _ inText]
    exact decode_eq_refused length markLength
      (Gcm.tag_flip_ne (Gcm.hashKey_ne_zero key) inText).symm
  obtain ⟨j, rfl⟩ := Nat.exists_eq_add_of_le (Nat.le_of_not_lt inText)
  rw [Bytes.flip_append_right]
  rw [List.length_append, List.length_append] at inside
  exact decode_eq_refused length (by rw [Bytes.length_flip, markLength])
    (Bytes.flip_ne (by omega))

/-- One byte, sealed under the zero key and the zero nonce. -/
theorem decode_flip_zeros :
    let codec : TokenCodec := ⟨⟨List.replicate 32 0, by decide⟩⟩
    Gcm.encipher codec.key.expand (List.replicate 16 0) ≠ List.replicate 16 0 ∧
      ∃ raw, Text.Base64Url.decode? (codec.encode (List.replicate 12 0) [7]).toList = some raw ∧
        raw.length = 29 ∧
        ∀ position < 232,
          codec.decode (String.ofList (Text.Base64Url.encode (Bytes.flip raw position))) =
            .error .refused := by
  intro codec
  have key : Gcm.encipher codec.key.expand (List.replicate 16 0) ≠ List.replicate 16 0 := by
    decide +kernel
  obtain ⟨raw, text, length, refused⟩ :=
    decode_flip codec key (List.replicate 12 0) [7] (by decide)
  have twentyNine : raw.length = 29 := length
  refine ⟨key, raw, text, twentyNine, fun position inside => refused position ?_⟩
  rwa [twentyNine]

end Bureau.TokenCodec
