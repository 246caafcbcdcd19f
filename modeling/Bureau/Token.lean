import Bureau.Cipher.Gcm
import Bureau.Hash.Sha256
import Bureau.Text.Base64Url

/-!
# Tokens

A token hides bytes from the client that carries it: they are encrypted, the nonce stands in
front, and the whole is written in Base64 for URLs. A sealed token names in its first byte what it
is for, so that an offer cannot be presented as a cursor. A text that is no token is refused in one
way only, whatever is wrong with it.
-/

namespace Bureau

/-- Why a key or a payload is refused. -/
inductive CryptoError where
  | invalidKey (reason : String)
  | encryptionFailed (reason : String)
  | decryptionFailed (reason : String)
  | keyGenerationFailed (reason : String)
deriving DecidableEq

namespace CryptoError

/-- The name of the kind of error. -/
def name : CryptoError → String
  | invalidKey _ => "InvalidKey"
  | encryptionFailed _ => "EncryptionFailed"
  | decryptionFailed _ => "DecryptionFailed"
  | keyGenerationFailed _ => "KeyGenerationFailed"

/-- What is said about the step that failed. -/
def message : CryptoError → String
  | invalidKey reason => "Invalid key: " ++ reason
  | encryptionFailed reason => "Encryption failed: " ++ reason
  | decryptionFailed reason => "Decryption failed: " ++ reason
  | keyGenerationFailed reason => "Key generation failed: " ++ reason

end CryptoError

/-! ### Payloads -/

/-- The nonce and the ciphertext, with its tag, of one encryption. -/
structure Payload where
  nonce : Bytes
  ciphertext : Bytes
deriving DecidableEq

namespace Payload

/-- The nonce in front of the ciphertext. -/
def toBytes (p : Payload) : Bytes := p.nonce ++ p.ciphertext

/-- Splits bytes into nonce and ciphertext; there must be room for a nonce and a tag. -/
def ofBytes (bytes : Bytes) : Except CryptoError Payload :=
  if bytes.length < Gcm.nonceLength + Gcm.tagLength then
    .error (.decryptionFailed "Payload too short")
  else .ok ⟨bytes.take Gcm.nonceLength, bytes.drop Gcm.nonceLength⟩

/-- Encrypts under a nonce. -/
def encrypt (key : Aes256.Key) (nonce aad plaintext : Bytes) : Payload :=
  ⟨nonce, Gcm.encrypt key nonce aad plaintext⟩

/-- The plaintext of a payload, when its tag is right. -/
def decrypt (key : Aes256.Key) (aad : Bytes) (p : Payload) : Except CryptoError Bytes :=
  match Gcm.decrypt? key p.nonce aad p.ciphertext with
  | some plaintext => .ok plaintext
  | none => .error (.decryptionFailed "Decryption failed")

end Payload

/-- Derives a key from a secret that is not empty. -/
def deriveKey (secret salt info : Bytes) : Except CryptoError Aes256.Key :=
  if secret.isEmpty then .error (.invalidKey "Empty secret")
  else
    match Aes256.Key.ofBytes? (Sha256.hkdfExpand (Sha256.hkdfExtract salt secret) info) with
    | some key => .ok key
    | none => .error (.keyGenerationFailed "Wrong length")

/-! ### Tokens -/

/-- What a sealed token is for. -/
inductive TokenKind where
  | offer
  | cursor
deriving DecidableEq

/-- The byte in front of what is sealed that tells the kinds apart. -/
def TokenKind.byte : TokenKind → UInt8
  | offer => 0x01
  | cursor => 0x02

/-- A text is not a token of this codec and kind. -/
inductive DecryptError where
  | refused
deriving DecidableEq

/-- The one text for everything that is not a token. -/
def DecryptError.message (_ : DecryptError) : String := "token could not be decrypted"

/-- Seals and opens tokens under one key. -/
structure TokenCodec where
  key : Aes256.Key

namespace TokenCodec

/-- The salt from which the key of tokens is derived. -/
def salt : Bytes := Bytes.ofString "exchequer-token-codec"

/-- What the derived key is for. -/
def info : Bytes := Bytes.ofString "aes-256-gcm"

/-- What every token authenticates besides its bytes. -/
def aad : Bytes := Bytes.ofString "exchequer-token-v1"

/-- The codec whose key is derived from a configured secret. -/
def ofSecret (secret : String) : Except CryptoError TokenCodec :=
  (deriveKey (Bytes.ofString secret) salt info).map TokenCodec.mk

/-- What may be shown of a codec. -/
def shown (_ : TokenCodec) : String := "TokenCodec \x7b key: \"<redacted>\" \x7d"

/-- The token of some bytes under a nonce. -/
def encode (codec : TokenCodec) (nonce bytes : Bytes) : String :=
  String.ofList (Text.Base64Url.encode (Payload.encrypt codec.key nonce aad bytes).toBytes)

/-- The bytes of a token. -/
def decode (codec : TokenCodec) (token : String) : Except DecryptError Bytes :=
  match Text.Base64Url.decode? token.toList with
  | none => .error .refused
  | some raw =>
    match (Payload.ofBytes raw).bind (Payload.decrypt codec.key aad) with
    | .error _ => .error .refused
    | .ok bytes => .ok bytes

/-- The token of some bytes behind the byte of a kind. -/
def sealAs (codec : TokenCodec) (kind : TokenKind) (nonce bytes : Bytes) : String :=
  codec.encode nonce (kind.byte :: bytes)

/-- The bytes of a token that was sealed as this kind. -/
def openAs (codec : TokenCodec) (kind : TokenKind) (token : String) : Except DecryptError Bytes :=
  match codec.decode token with
  | .ok (b :: bytes) => if b = kind.byte then .ok bytes else .error .refused
  | _ => .error .refused

end TokenCodec

end Bureau
