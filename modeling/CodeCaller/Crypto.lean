import CodeCaller.Library.JsString

/-!
# `crypto.util.ts`

The primitives of Node's `crypto` module are a parameter: a hash, an authenticated cipher and a
source of random bytes.  What `crypto.util.ts` builds from them, with the `Buffer` conversions it
goes through, is defined here and not assumed.

* `utf8Encode` and `utf8Decode` are `Buffer.from(s, 'utf8')` and its inverse, with the treatment of
  lone surrogates and of ill-formed bytes that Node documents.
* `hexEncode` and `hexDecode` are the conversions to and from hex.
* `hashApiKey`, `encryptSecret`, `decryptSecret`, `encryptForRequestSecret` and
  `decryptForRequestSecret` are the functions of the file.

`randomBytes` takes the number of a draw, so a function that draws twice names two draws, and what
two draws have in common is for the caller to say.

### Results

Hex and UTF-8 lose nothing (`hexDecode_hexEncode`, and `utf8Decode_utf8Encode` for ASCII; the case
of all well-formed strings is in the module on envelopes), and what is sealed for a request is what
is opened under the same secret (`decryptForRequestSecret_encrypt`).
-/

namespace CodeCaller

open Async

/-- A `Buffer`. -/
abbrev Bytes := List UInt8

/-- **Node's `crypto` primitives.**  Decryption answers `none` where
`decipher.final()` throws. -/
structure NodeCrypto where
  sha256 : Bytes → Bytes
  /-- The `draw`-th call of `randomBytes`, for a number of bytes. -/
  randomBytes : (draw : ℕ) → (size : ℕ) → Bytes
  /-- `aes-256-gcm` under a key and an iv: the ciphertext and the tag. -/
  encrypt : (key iv plain : Bytes) → Bytes × Bytes
  decrypt : (key iv authTag data : Bytes) → Option Bytes

/-! ## `Buffer` conversions -/

/-- The UTF-8 bytes of a code point. -/
def utf8Bytes (point : ℕ) : Bytes :=
  if point < 0x80 then [point.toUInt8]
  else if point < 0x800 then [(0xC0 + point / 0x40).toUInt8, (0x80 + point % 0x40).toUInt8]
  else if point < 0x10000 then
    [(0xE0 + point / 0x1000).toUInt8, (0x80 + point / 0x40 % 0x40).toUInt8,
      (0x80 + point % 0x40).toUInt8]
  else
    [(0xF0 + point / 0x40000).toUInt8, (0x80 + point / 0x1000 % 0x40).toUInt8,
      (0x80 + point / 0x40 % 0x40).toUInt8, (0x80 + point % 0x40).toUInt8]

/-- `Buffer.from(s, 'utf8')`: a lone surrogate is encoded as U+FFFD. -/
def utf8Encode : JsString → Bytes
  | [] => []
  | [unit] =>
    if 0xD800 ≤ unit.toNat ∧ unit.toNat < 0xE000 then utf8Bytes 0xFFFD
    else utf8Bytes unit.toNat
  | high :: low :: rest =>
    if 0xD800 ≤ high.toNat ∧ high.toNat < 0xDC00 ∧ 0xDC00 ≤ low.toNat ∧ low.toNat < 0xE000 then
      utf8Bytes (0x10000 + (high.toNat - 0xD800) * 0x400 + (low.toNat - 0xDC00)) ++
        utf8Encode rest
    else if 0xD800 ≤ high.toNat ∧ high.toNat < 0xE000 then
      utf8Bytes 0xFFFD ++ utf8Encode (low :: rest)
    else utf8Bytes high.toNat ++ utf8Encode (low :: rest)

/-- The code units of a code point. -/
def unitsOfPoint (point : ℕ) : JsString :=
  if point < 0x10000 then [point.toUInt16]
  else [((point - 0x10000) / 0x400 + 0xD800).toUInt16,
    ((point - 0x10000) % 0x400 + 0xDC00).toUInt16]

/-- What a UTF-8 decoder is waiting for: the continuation bytes missing, the
bits read so far, and the range the next byte must lie in. -/
structure Utf8State where
  missing : ℕ
  point : ℕ
  lower : ℕ
  upper : ℕ

/-- The state after a byte that starts a sequence; `none` for a byte that
cannot. -/
def Utf8State.ofLead (byte : ℕ) : Option Utf8State :=
  if 0xC2 ≤ byte ∧ byte ≤ 0xDF then some ⟨1, byte - 0xC0, 0x80, 0xBF⟩
  else if 0xE0 ≤ byte ∧ byte ≤ 0xEF then
    some ⟨2, byte - 0xE0, if byte = 0xE0 then 0xA0 else 0x80,
      if byte = 0xED then 0x9F else 0xBF⟩
  else if 0xF0 ≤ byte ∧ byte ≤ 0xF4 then
    some ⟨3, byte - 0xF0, if byte = 0xF0 then 0x90 else 0x80,
      if byte = 0xF4 then 0x8F else 0xBF⟩
  else none

/-- One byte read outside a sequence: a character, a replacement, or a wait. -/
def utf8Lead (byte : ℕ) : JsString × Option Utf8State :=
  if byte < 0x80 then ([byte.toUInt16], none)
  else match Utf8State.ofLead byte with
    | some state => ([], some state)
    | none => ([0xFFFD], none)

/-- `buffer.toString('utf8')`: every maximal ill-formed part becomes U+FFFD. -/
def utf8Decode : Option Utf8State → Bytes → JsString
  | none, [] => []
  | some _, [] => [0xFFFD]
  | none, byte :: rest =>
    let (units, state) := utf8Lead byte.toNat
    units ++ utf8Decode state rest
  | some state, byte :: rest =>
    if state.lower ≤ byte.toNat ∧ byte.toNat ≤ state.upper then
      let point := state.point * 0x40 + (byte.toNat - 0x80)
      if state.missing = 1 then unitsOfPoint point ++ utf8Decode none rest
      else utf8Decode (some ⟨state.missing - 1, point, 0x80, 0xBF⟩) rest
    else
      let (units, next) := utf8Lead byte.toNat
      0xFFFD :: (units ++ utf8Decode next rest)

/-- The code unit of a hex digit. -/
def hexDigit (n : ℕ) : UInt16 :=
  if n < 10 then (48 + n).toUInt16 else (87 + n).toUInt16

/-- `buffer.toString('hex')`. -/
def hexEncode (bytes : Bytes) : JsString :=
  bytes.flatMap fun byte => [hexDigit (byte.toNat / 16), hexDigit (byte.toNat % 16)]

/-- The value of a hex digit. -/
def hexValue? (unit : UInt16) : Option ℕ :=
  let n := unit.toNat
  if 48 ≤ n ∧ n ≤ 57 then some (n - 48)
  else if 97 ≤ n ∧ n ≤ 102 then some (n - 87)
  else if 65 ≤ n ∧ n ≤ 70 then some (n - 55)
  else none

/-- `Buffer.from(s, 'hex')`: decoding stops at the first pair that is not two hex digits.  Node
looks at the low byte of a code unit only, so it takes some units beyond Latin-1 for digits where
the definition stops; an envelope and a configured key hold no such units. -/
def hexDecode : JsString → Bytes
  | high :: low :: rest =>
    match hexValue? high, hexValue? low with
    | some a, some b => (16 * a + b).toUInt8 :: hexDecode rest
    | _, _ => []
  | _ => []

/-! ## The functions of `crypto.util.ts` -/

section Functions

variable (crypto : NodeCrypto)

/-- `randomBytes(32).toString('hex')`. -/
def generateApiKey (draw : ℕ) : JsString := hexEncode (crypto.randomBytes draw 32)

/-- The secret of a registration request, made as an API key is. -/
def generateSecret (draw : ℕ) : JsString := hexEncode (crypto.randomBytes draw 32)

/-- `randomBytes(3).readUIntBE(0, 3) % 1000000`, padded to six digits. -/
def generateVerificationCode (draw : ℕ) : JsString :=
  let value := (crypto.randomBytes draw 3).foldl (fun acc byte => 256 * acc + byte.toNat) 0
  let digits := JsString.ofNat (value % 1000000)
  js (String.ofList (List.replicate (6 - digits.length) '0')) ++ digits

/-- `sha256(apiKey)` in hex: what the database stores of a key. -/
def hashApiKey (apiKey : JsString) : JsString := hexEncode (crypto.sha256 (utf8Encode apiKey))

/-- `encryptSecret`: `iv:tag:data` in hex; `none` where `createCipheriv` throws, for a key
that has not 32 bytes. -/
def encryptSecret (draw : ℕ) (plainText keyHex : JsString) : Option JsString :=
  let key := hexDecode keyHex
  let iv := crypto.randomBytes draw 12
  if key.length = 32 then
    let (encrypted, authTag) := crypto.encrypt key iv (utf8Encode plainText)
    some (JsString.join ([iv, authTag, encrypted].map hexEncode) [58])
  else none

/-- `decryptSecret`: the stored text is `iv:tag:data` in hex; `none` where it
throws. -/
def decryptSecret (cipherText keyHex : JsString) : Option JsString :=
  match cipherText.splitOn 58 with
  | ivHex :: authTagHex :: dataHex :: _ =>
    (crypto.decrypt (hexDecode keyHex) (hexDecode ivHex) (hexDecode authTagHex)
      (hexDecode dataHex)).map (utf8Decode none)
  | _ => none

/-- The ciphertext, the iv and the tag of `encryptForRequestSecret`, in hex. -/
structure RequestSecretEnvelope where
  ciphertext : JsString
  iv : JsString
  authTag : JsString

/-- The key of the cipher is the digest of the secret.  The Hub calls this with the *hash* of the
request secret, which it stores. -/
def encryptForRequestSecret (draw : ℕ) (plainText requestSecret : JsString) :
    RequestSecretEnvelope :=
  let key := crypto.sha256 (utf8Encode requestSecret)
  let iv := crypto.randomBytes draw 12
  let (encrypted, authTag) := crypto.encrypt key iv (utf8Encode plainText)
  { ciphertext := hexEncode encrypted, iv := hexEncode iv, authTag := hexEncode authTag }

/-- `none` where `decipher.final()` throws. -/
def decryptForRequestSecret (payload : RequestSecretEnvelope) (requestSecret : JsString) :
    Option JsString :=
  let key := crypto.sha256 (utf8Encode requestSecret)
  (crypto.decrypt key (hexDecode payload.iv) (hexDecode payload.authTag)
    (hexDecode payload.ciphertext)).map (utf8Decode none)

end Functions

/-! ## Round trips -/

/-- A digit is below the surrogates, and its value is that of its place in one of two ranges. -/
theorem hexDigit_toNat {n : ℕ} (hn : n < 16) :
    (hexDigit n).toNat = if n < 10 then 48 + n else 87 + n := by
  unfold hexDigit
  split <;> simp <;> omega

/-- Reading undoes writing, for one digit. -/
theorem hexValue?_hexDigit {n : ℕ} (hn : n < 16) : hexValue? (hexDigit n) = some n := by
  unfold hexValue?
  rw [hexDigit_toNat hn]
  dsimp only
  by_cases hdecimal : n < 10
  · rw [if_pos hdecimal, if_pos (by omega)]
    simp
  · rw [if_neg hdecimal, if_neg (by omega), if_pos (by omega)]
    simp

/-- Decoding undoes hex encoding. -/
theorem hexDecode_hexEncode (bytes : Bytes) : hexDecode (hexEncode bytes) = bytes := by
  induction bytes with
  | nil => rfl
  | cons byte rest ih =>
      have hbyte := byte.toNat_lt
      have hcons : hexEncode (byte :: rest) =
          hexDigit (byte.toNat / 16) :: hexDigit (byte.toNat % 16) :: hexEncode rest := rfl
      rw [hcons, hexDecode, hexValue?_hexDigit (by omega), hexValue?_hexDigit (by omega)]
      dsimp only
      rw [ih, Nat.div_add_mod]
      simp

/-- Two byte sequences with one hex text are one. -/
theorem hexEncode_injective : Function.Injective hexEncode :=
  Function.LeftInverse.injective hexDecode_hexEncode

/-- A string of ASCII characters. -/
def Ascii (s : JsString) : Prop := ∀ unit ∈ s, unit.toNat < 0x80

/-- Hex is ASCII, so it survives UTF-8. -/
theorem hexEncode_ascii (bytes : Bytes) : Ascii (hexEncode bytes) := by
  intro unit hunit
  obtain ⟨byte, -, hdigit⟩ := List.mem_flatMap.mp hunit
  have hbyte := byte.toNat_lt
  have hdigit : ∃ n < 16, unit = hexDigit n := by
    rcases List.mem_cons.mp hdigit with rfl | hdigit
    · exact ⟨byte.toNat / 16, by omega, rfl⟩
    · exact ⟨byte.toNat % 16, by omega, List.mem_singleton.mp hdigit⟩
  obtain ⟨n, hn, rfl⟩ := hdigit
  rw [hexDigit_toNat hn]
  split <;> omega

/-- An ASCII character is one byte. -/
theorem utf8Encode_cons {unit : UInt16} {rest : JsString} (hunit : unit.toNat < 0x80) :
    utf8Encode (unit :: rest) = unit.toNat.toUInt8 :: utf8Encode rest := by
  have hbytes : utf8Bytes unit.toNat = [unit.toNat.toUInt8] := if_pos hunit
  have hsurrogate : ¬(0xD800 ≤ unit.toNat ∧ unit.toNat < 0xE000) := by omega
  cases rest with
  | nil =>
      unfold utf8Encode
      rw [if_neg hsurrogate, hbytes]
  | cons low rest =>
      have hpair : ¬(0xD800 ≤ unit.toNat ∧ unit.toNat < 0xDC00 ∧ 0xDC00 ≤ low.toNat ∧
        low.toNat < 0xE000) := by omega
      conv_lhs => unfold utf8Encode
      rw [if_neg hpair, if_neg hsurrogate, hbytes]
      rfl

/-- Decoding undoes encoding on ASCII strings. -/
theorem utf8Decode_utf8Encode {s : JsString} (hs : Ascii s) :
    utf8Decode none (utf8Encode s) = s := by
  induction s with
  | nil => rfl
  | cons unit rest ih =>
      have hunit : unit.toNat < 0x80 := hs unit List.mem_cons_self
      have hbyte : unit.toNat.toUInt8.toNat = unit.toNat := by
        simp
        omega
      rw [utf8Encode_cons hunit, utf8Decode, hbyte]
      have hlead : utf8Lead unit.toNat = ([unit.toNat.toUInt16], none) := if_pos hunit
      rw [hlead]
      dsimp only
      rw [ih fun other hother => hs other (List.mem_cons_of_mem _ hother)]
      simp

/-- **What is sealed for a request is what is opened**, where the cipher inverts under the key and
the iv that are used. -/
theorem decryptForRequestSecret_encrypt {crypto : NodeCrypto} {draw : ℕ}
    {plainText requestSecret : JsString}
    (htext : utf8Decode none (utf8Encode plainText) = plainText)
    (hcipher : crypto.decrypt (crypto.sha256 (utf8Encode requestSecret))
      (crypto.randomBytes draw 12)
      (crypto.encrypt (crypto.sha256 (utf8Encode requestSecret)) (crypto.randomBytes draw 12)
        (utf8Encode plainText)).2
      (crypto.encrypt (crypto.sha256 (utf8Encode requestSecret)) (crypto.randomBytes draw 12)
        (utf8Encode plainText)).1 = some (utf8Encode plainText)) :
    decryptForRequestSecret crypto (encryptForRequestSecret crypto draw plainText requestSecret)
      requestSecret = some plainText := by
  unfold decryptForRequestSecret encryptForRequestSecret
  dsimp only
  rw [hexDecode_hexEncode, hexDecode_hexEncode, hexDecode_hexEncode, hcipher, Option.map_some,
    htext]

/-- Two ASCII strings with the same bytes are one. -/
theorem utf8Encode_injOn {s s' : JsString} (hs : Ascii s) (hs' : Ascii s')
    (heq : utf8Encode s = utf8Encode s') : s = s' := by
  rw [← utf8Decode_utf8Encode hs, heq, utf8Decode_utf8Encode hs']

end CodeCaller
