import CodeCaller.Crypto

/-!
# Envelopes of secrets

A text that is encrypted goes through UTF-8, the cipher and hex, and its envelope back through all
three.  `secrets_round_trip` says that nothing is lost on the way, for every well-formed text,
every key and every iv, in both formats that the code has: the text `iv:tag:data` of
`encryptSecret`, and the envelope for a request.

### How the proof goes

* UTF-8 is the hard part.  A decoder is a state (`Utf8State`), and the lemmas `utf8Decode_lead`,
  `utf8Decode_more` and `utf8Decode_last` say what one byte does to it; `utf8Decode_utf8Bytes`
  reads one code point with them, and `utf8Decode_wellFormed` a string, by recursion along its
  surrogate pairs.
* For a string with lone surrogates the round trip gives its well-formed version
  (`utf8Decode_encode`), which is what `toWellFormed` does.
* Hex has no colon, so the three parts of an envelope are found again by `split`
  (`splitOn_join_hexEncode`).

### What is load-bearing

`NodeCrypto.Decrypts` is what is assumed of the cipher: decryption under the same key, iv and tag
inverts encryption, for keys of 32 bytes.  Nothing is assumed about other keys, and no secrecy is
claimed.
-/

namespace CodeCaller

open Async

/-! ## UTF-8 -/

/-- A string without lone surrogates. -/
def JsString.WellFormed : JsString → Prop
  | [] => True
  | [unit] => ¬(0xD800 ≤ unit.toNat ∧ unit.toNat < 0xE000)
  | high :: low :: rest =>
    if 0xD800 ≤ high.toNat ∧ high.toNat < 0xDC00 ∧ 0xDC00 ≤ low.toNat ∧ low.toNat < 0xE000 then
      JsString.WellFormed rest
    else ¬(0xD800 ≤ high.toNat ∧ high.toNat < 0xE000) ∧ JsString.WellFormed (low :: rest)

instance JsString.decidableWellFormed : DecidablePred JsString.WellFormed
  | [] => inferInstanceAs (Decidable True)
  | [unit] => inferInstanceAs (Decidable ¬(0xD800 ≤ unit.toNat ∧ unit.toNat < 0xE000))
  | high :: low :: rest =>
    have : Decidable (JsString.WellFormed rest) := decidableWellFormed rest
    have : Decidable (JsString.WellFormed (low :: rest)) := decidableWellFormed (low :: rest)
    inferInstanceAs (Decidable (if 0xD800 ≤ high.toNat ∧ high.toNat < 0xDC00 ∧ 0xDC00 ≤ low.toNat ∧
      low.toNat < 0xE000 then JsString.WellFormed rest
      else ¬(0xD800 ≤ high.toNat ∧ high.toNat < 0xE000) ∧ JsString.WellFormed (low :: rest)))

/-- A unit that is no surrogate can stand anywhere. -/
theorem wellFormed_unit {unit : UInt16} (hunit : ¬(0xD800 ≤ unit.toNat ∧ unit.toNat < 0xE000))
    {rest : JsString} (hrest : JsString.WellFormed rest) : JsString.WellFormed (unit :: rest) := by
  cases rest with
  | nil => exact hunit
  | cons low rest =>
      have hpair : ¬(0xD800 ≤ unit.toNat ∧ unit.toNat < 0xDC00 ∧ 0xDC00 ≤ low.toNat ∧
        low.toNat < 0xE000) := by omega
      unfold JsString.WellFormed
      rw [if_neg hpair]
      exact ⟨hunit, hrest⟩

/-- A code point that is no surrogate. -/
def IsScalar (point : ℕ) : Prop :=
  point < 0xD800 ∨ 0xE000 ≤ point ∧ point < 0x110000

/-- A byte that fits is not cut. -/
theorem toUInt8_toNat {n : ℕ} (hn : n < 256) : n.toUInt8.toNat = n := by
  simp
  omega

/-- One byte of a sequence that is not its last. -/
theorem utf8Decode_more {state : Utf8State} {byte : ℕ} {rest : Bytes} (hbyte : byte < 256)
    (hrange : state.lower ≤ byte ∧ byte ≤ state.upper) (hmissing : state.missing ≠ 1) :
    utf8Decode (some state) (byte.toUInt8 :: rest) =
      utf8Decode (some ⟨state.missing - 1, state.point * 0x40 + (byte - 0x80), 0x80, 0xBF⟩)
        rest := by
  rw [utf8Decode, toUInt8_toNat hbyte, if_pos hrange]
  exact if_neg hmissing

/-- The last byte of a sequence. -/
theorem utf8Decode_last {state : Utf8State} {byte : ℕ} {rest : Bytes} (hbyte : byte < 256)
    (hrange : state.lower ≤ byte ∧ byte ≤ state.upper) (hmissing : state.missing = 1) :
    utf8Decode (some state) (byte.toUInt8 :: rest) =
      unitsOfPoint (state.point * 0x40 + (byte - 0x80)) ++ utf8Decode none rest := by
  rw [utf8Decode, toUInt8_toNat hbyte, if_pos hrange]
  exact if_pos hmissing

/-- The first byte of a sequence. -/
theorem utf8Decode_lead {byte : ℕ} {state : Utf8State} {rest : Bytes} (hbyte : byte < 256)
    (hascii : ¬byte < 0x80) (hlead : Utf8State.ofLead byte = some state) :
    utf8Decode none (byte.toUInt8 :: rest) = utf8Decode (some state) rest := by
  have hunits : utf8Lead byte = ([], some state) := by
    unfold utf8Lead
    rw [if_neg hascii, hlead]
  rw [utf8Decode, toUInt8_toNat hbyte, hunits]
  rfl

/-- **A code point is read as it was written.** -/
theorem utf8Decode_utf8Bytes {point : ℕ} (hpoint : IsScalar point) (rest : Bytes) :
    utf8Decode none (utf8Bytes point ++ rest) = unitsOfPoint point ++ utf8Decode none rest := by
  have hbound : point < 0x110000 := by
    rcases hpoint with h | ⟨-, h⟩
    · omega
    · exact h
  unfold utf8Bytes
  -- one case for each length, from one byte to four
  split_ifs with hone htwo hthree
  · have hlead : utf8Lead point = ([point.toUInt16], none) := if_pos hone
    have hunits : unitsOfPoint point = [point.toUInt16] := if_pos (by omega)
    rw [List.singleton_append, utf8Decode, toUInt8_toNat (by omega), hlead, hunits]
  · have hlead : Utf8State.ofLead (0xC0 + point / 0x40) =
        some ⟨1, 0xC0 + point / 0x40 - 0xC0, 0x80, 0xBF⟩ := if_pos (by omega)
    rw [List.cons_append, List.singleton_append, utf8Decode_lead (by omega) (by omega) hlead,
      utf8Decode_last (by omega) ⟨by dsimp only; omega, by dsimp only; omega⟩ rfl]
    have heq : (0xC0 + point / 0x40 - 0xC0) * 0x40 + (0x80 + point % 0x40 - 0x80) = point := by
      omega
    dsimp only
    rw [heq]
  · have hlead : Utf8State.ofLead (0xE0 + point / 0x1000) =
        some ⟨2, 0xE0 + point / 0x1000 - 0xE0, if 0xE0 + point / 0x1000 = 0xE0 then 0xA0 else 0x80,
          if 0xE0 + point / 0x1000 = 0xED then 0x9F else 0xBF⟩ := by
      unfold Utf8State.ofLead
      rw [if_neg (by omega), if_pos (by omega)]
    -- the second byte is bounded so that the first form is the shortest, and no surrogate
    have hrange : (if 0xE0 + point / 0x1000 = 0xE0 then 0xA0 else 0x80) ≤
          0x80 + point / 0x40 % 0x40 ∧
        0x80 + point / 0x40 % 0x40 ≤ if 0xE0 + point / 0x1000 = 0xED then 0x9F else 0xBF := by
      unfold IsScalar at hpoint
      split_ifs <;> omega
    rw [List.cons_append, List.cons_append, List.singleton_append,
      utf8Decode_lead (by omega) (by omega) hlead,
      utf8Decode_more (by omega) hrange (by dsimp only; omega),
      utf8Decode_last (by omega) ⟨by dsimp only; omega, by dsimp only; omega⟩ rfl]
    have heq :
        ((0xE0 + point / 0x1000 - 0xE0) * 0x40 + (0x80 + point / 0x40 % 0x40 - 0x80)) * 0x40 +
          (0x80 + point % 0x40 - 0x80) = point := by omega
    dsimp only
    rw [heq]
  · have hlead : Utf8State.ofLead (0xF0 + point / 0x40000) =
        some ⟨3, 0xF0 + point / 0x40000 - 0xF0,
          if 0xF0 + point / 0x40000 = 0xF0 then 0x90 else 0x80,
          if 0xF0 + point / 0x40000 = 0xF4 then 0x8F else 0xBF⟩ := by
      unfold Utf8State.ofLead
      rw [if_neg (by omega), if_neg (by omega), if_pos (by omega)]
    have hrange : (if 0xF0 + point / 0x40000 = 0xF0 then 0x90 else 0x80) ≤
          0x80 + point / 0x1000 % 0x40 ∧
        0x80 + point / 0x1000 % 0x40 ≤ if 0xF0 + point / 0x40000 = 0xF4 then 0x8F else 0xBF := by
      split_ifs <;> omega
    rw [List.cons_append, List.cons_append, List.cons_append, List.singleton_append,
      utf8Decode_lead (by omega) (by omega) hlead,
      utf8Decode_more (by omega) hrange (by dsimp only; omega),
      utf8Decode_more (by omega) ⟨by dsimp only; omega, by dsimp only; omega⟩
        (by dsimp only; omega),
      utf8Decode_last (by omega) ⟨by dsimp only; omega, by dsimp only; omega⟩ rfl]
    have heq : (((0xF0 + point / 0x40000 - 0xF0) * 0x40 + (0x80 + point / 0x1000 % 0x40 - 0x80)) *
        0x40 + (0x80 + point / 0x40 % 0x40 - 0x80)) * 0x40 + (0x80 + point % 0x40 - 0x80) =
        point := by omega
    dsimp only
    rw [heq]

/-- The units of a point of the basic plane. -/
theorem unitsOfPoint_unit (unit : UInt16) : unitsOfPoint unit.toNat = [unit] := by
  have hunit := unit.toNat_lt
  unfold unitsOfPoint
  rw [if_pos (by omega)]
  simp

/-- The units of a surrogate pair. -/
theorem unitsOfPoint_pair {high low : UInt16} (hhigh : 0xD800 ≤ high.toNat ∧ high.toNat < 0xDC00)
    (hlow : 0xDC00 ≤ low.toNat ∧ low.toNat < 0xE000) :
    unitsOfPoint (0x10000 + (high.toNat - 0xD800) * 0x400 + (low.toNat - 0xDC00)) =
      [high, low] := by
  have hfirst : (0x10000 + (high.toNat - 0xD800) * 0x400 + (low.toNat - 0xDC00) - 0x10000) / 0x400 +
      0xD800 = high.toNat := by omega
  have hsecond :
      (0x10000 + (high.toNat - 0xD800) * 0x400 + (low.toNat - 0xDC00) - 0x10000) % 0x400 +
        0xDC00 = low.toNat := by omega
  unfold unitsOfPoint
  rw [if_neg (by omega), hfirst, hsecond]
  simp

/-- **Decoding undoes encoding on well-formed strings.** -/
theorem utf8Decode_wellFormed : ∀ {s : JsString}, JsString.WellFormed s →
    utf8Decode none (utf8Encode s) = s
  | [], _ => rfl
  | [unit], hs => by
      unfold JsString.WellFormed at hs
      have hunit := unit.toNat_lt
      have hdecode := @utf8Decode_utf8Bytes unit.toNat (by unfold IsScalar; omega) []
      rw [List.append_nil] at hdecode
      unfold utf8Encode
      rw [if_neg hs, hdecode, unitsOfPoint_unit]
      rfl
  | high :: low :: rest, hs => by
      have hunit := high.toNat_lt
      unfold JsString.WellFormed at hs
      unfold utf8Encode
      split_ifs at hs with hpair
      · rw [if_pos hpair, utf8Decode_utf8Bytes (by unfold IsScalar; omega),
          unitsOfPoint_pair ⟨hpair.1, hpair.2.1⟩ hpair.2.2, utf8Decode_wellFormed hs]
        rfl
      · obtain ⟨hlone, hrest⟩ := hs
        rw [if_neg hpair, if_neg hlone, utf8Decode_utf8Bytes (by unfold IsScalar; omega),
          unitsOfPoint_unit, utf8Decode_wellFormed hrest]
        rfl

/-- `s.toWellFormed()`: every lone surrogate becomes U+FFFD. -/
def JsString.toWellFormed : JsString → JsString
  | [] => []
  | [unit] => if 0xD800 ≤ unit.toNat ∧ unit.toNat < 0xE000 then [0xFFFD] else [unit]
  | high :: low :: rest =>
    if 0xD800 ≤ high.toNat ∧ high.toNat < 0xDC00 ∧ 0xDC00 ≤ low.toNat ∧ low.toNat < 0xE000 then
      high :: low :: JsString.toWellFormed rest
    else if 0xD800 ≤ high.toNat ∧ high.toNat < 0xE000 then
      0xFFFD :: JsString.toWellFormed (low :: rest)
    else high :: JsString.toWellFormed (low :: rest)

/-- A unit that is no surrogate is encoded as its own point. -/
theorem utf8Encode_unit {unit : UInt16} (hunit : ¬(0xD800 ≤ unit.toNat ∧ unit.toNat < 0xE000))
    (rest : JsString) : utf8Encode (unit :: rest) = utf8Bytes unit.toNat ++ utf8Encode rest := by
  cases rest with
  | nil =>
      unfold utf8Encode
      rw [if_neg hunit, List.append_nil]
  | cons low rest =>
      have hpair : ¬(0xD800 ≤ unit.toNat ∧ unit.toNat < 0xDC00 ∧ 0xDC00 ≤ low.toNat ∧
        low.toNat < 0xE000) := by omega
      conv_lhs => unfold utf8Encode
      rw [if_neg hpair, if_neg hunit]

/-- A string is encoded as its well-formed version is. -/
theorem utf8Encode_toWellFormed : ∀ s : JsString,
    utf8Encode (JsString.toWellFormed s) = utf8Encode s
  | [] => rfl
  | [unit] => by
      unfold JsString.toWellFormed
      split_ifs with hlone
      · conv_rhs => unfold utf8Encode
        rw [if_pos hlone]
        rfl
      · rfl
  | high :: low :: rest => by
      unfold JsString.toWellFormed
      conv_rhs => unfold utf8Encode
      split_ifs with hpair hlone
      · conv_lhs => unfold utf8Encode
        rw [if_pos hpair, utf8Encode_toWellFormed rest]
      · rw [utf8Encode_unit (by decide), utf8Encode_toWellFormed (low :: rest)]
        rfl
      · rw [utf8Encode_unit hlone, utf8Encode_toWellFormed (low :: rest)]

/-- Where the lone surrogates are gone the string is well formed. -/
theorem toWellFormed_wellFormed : ∀ s : JsString, JsString.WellFormed (JsString.toWellFormed s)
  | [] => trivial
  | [unit] => by
      unfold JsString.toWellFormed
      split_ifs with hlone
      · decide
      · exact hlone
  | high :: low :: rest => by
      unfold JsString.toWellFormed
      split_ifs with hpair hlone
      · unfold JsString.WellFormed
        rw [if_pos hpair]
        exact toWellFormed_wellFormed rest
      · exact wellFormed_unit (by decide) (toWellFormed_wellFormed (low :: rest))
      · exact wellFormed_unit hlone (toWellFormed_wellFormed (low :: rest))

/-- Decoding undoes encoding, up to lone surrogates. -/
theorem utf8Decode_encode (s : JsString) :
    utf8Decode none (utf8Encode s) = JsString.toWellFormed s := by
  rw [← utf8Encode_toWellFormed, utf8Decode_wellFormed (toWellFormed_wellFormed s)]

/-- A well-formed string is left as it is. -/
theorem toWellFormed_of_wellFormed {s : JsString} (hs : JsString.WellFormed s) :
    JsString.toWellFormed s = s := by
  rw [← utf8Decode_encode, utf8Decode_wellFormed hs]

/-! ## Envelopes -/

/-- There is no colon in hex. -/
theorem colon_notMem_hexEncode (bytes : Bytes) : 58 ∉ hexEncode bytes := by
  intro hmem
  obtain ⟨byte, -, hdigit⟩ := List.mem_flatMap.mp hmem
  have hbyte := byte.toNat_lt
  have hne : ∀ n < 16, (58 : UInt16) ≠ hexDigit n := by
    intro n hn heq
    have hnat : (58 : UInt16).toNat = (hexDigit n).toNat := congrArg UInt16.toNat heq
    rw [hexDigit_toNat hn, show (58 : UInt16).toNat = 58 from rfl] at hnat
    split_ifs at hnat <;> omega
  rcases List.mem_cons.mp hdigit with heq | hdigit
  · exact hne _ (by omega) heq
  · exact hne _ (by omega) (List.mem_singleton.mp hdigit)

/-- Hex parts joined by colons are found again. -/
theorem splitOn_join_hexEncode {parts : List Bytes} (hne : parts ≠ []) :
    (JsString.join (parts.map hexEncode) [58]).splitOn 58 = parts.map hexEncode := by
  refine List.splitOn_intercalate 58 (fun part hpart => ?_) (by simpa using hne)
  obtain ⟨bytes, -, rfl⟩ := List.mem_map.mp hpart
  exact colon_notMem_hexEncode bytes

/-- **What is relied on of `aes-256-gcm`**: with a key of 32 bytes and an iv of 12,
decryption under the same key, iv and tag inverts encryption. -/
def NodeCrypto.Decrypts (crypto : NodeCrypto) : Prop :=
  ∀ key iv plain : Bytes, key.length = 32 → iv.length = 12 →
    crypto.decrypt key iv (crypto.encrypt key iv plain).2 (crypto.encrypt key iv plain).1 =
      some plain

section RoundTrips

variable {crypto : NodeCrypto} {draw : ℕ} {p : JsString}

/-- What `encryptSecret` writes is what `decryptSecret` splits. -/
theorem encryptSecret_split {keyHex : JsString} (hkey : (hexDecode keyHex).length = 32) :
    ∃ text, encryptSecret crypto draw p keyHex = some text ∧
      text.splitOn 58 = [crypto.randomBytes draw 12,
        (crypto.encrypt (hexDecode keyHex) (crypto.randomBytes draw 12) (utf8Encode p)).2,
        (crypto.encrypt (hexDecode keyHex) (crypto.randomBytes draw 12) (utf8Encode p)).1].map
          hexEncode :=
  ⟨_, if_pos hkey, splitOn_join_hexEncode (List.cons_ne_nil _ _)⟩

/-- **The text of `encryptSecret` is read back**, up to lone surrogates. -/
theorem decryptSecret_encryptSecret (haes : crypto.Decrypts)
    (hiv : (crypto.randomBytes draw 12).length = 12)
    {keyHex text : JsString} (hkey : (hexDecode keyHex).length = 32)
    (htext : encryptSecret crypto draw p keyHex = some text) :
    decryptSecret crypto text keyHex = some (JsString.toWellFormed p) := by
  obtain ⟨text', htext', hsplit⟩ := @encryptSecret_split crypto draw p keyHex hkey
  obtain rfl : text = text' := Option.some.inj (htext.symm.trans htext')
  unfold decryptSecret
  rw [hsplit]
  simp only [List.map_cons, List.map_nil]
  rw [hexDecode_hexEncode, hexDecode_hexEncode, hexDecode_hexEncode, haes _ _ _ hkey hiv,
    Option.map_some, utf8Decode_encode]

end RoundTrips

/-- **Secret envelopes decode to what was encoded**, and the text of `encryptSecret` splits
into the iv, the tag and the data it was built from. -/
theorem secrets_round_trip {crypto : NodeCrypto} (haes : crypto.Decrypts) {draw : ℕ}
    (hiv : (crypto.randomBytes draw 12).length = 12) {p : JsString} (hp : JsString.WellFormed p) :
    (∀ keyHex, (hexDecode keyHex).length = 32 →
      ∃ text, encryptSecret crypto draw p keyHex = some text ∧
        decryptSecret crypto text keyHex = some p ∧
        (text.splitOn 58).map hexDecode = [crypto.randomBytes draw 12,
          (crypto.encrypt (hexDecode keyHex) (crypto.randomBytes draw 12) (utf8Encode p)).2,
          (crypto.encrypt (hexDecode keyHex) (crypto.randomBytes draw 12) (utf8Encode p)).1]) ∧
    (∀ requestSecret, (crypto.sha256 (utf8Encode requestSecret)).length = 32 →
      decryptForRequestSecret crypto (encryptForRequestSecret crypto draw p requestSecret)
        requestSecret = some p) := by
  refine ⟨fun keyHex hkey => ?_, fun requestSecret hdigest =>
    decryptForRequestSecret_encrypt (utf8Decode_wellFormed hp) (haes _ _ _ hdigest hiv)⟩
  obtain ⟨text, htext, hsplit⟩ := @encryptSecret_split crypto draw p keyHex hkey
  refine ⟨text, htext, ?_, ?_⟩
  · rw [decryptSecret_encryptSecret haes hiv hkey htext, toWellFormed_of_wellFormed hp]
  · rw [hsplit, List.map_map]
    exact List.map_id'' hexDecode_hexEncode _

/-! ## An envelope -/

/-- `é` and a character outside of the basic plane. -/
def samplePlain : JsString := [0xE9, 0xD83D, 0xDE00]

/-- The digest of the request secret `s`. -/
def sampleSecretKey : Bytes :=
  [0x04, 0x3a, 0x71, 0x87, 0x74, 0xc5, 0x72, 0xbd, 0x8a, 0x25, 0xad, 0xbe, 0xb1, 0xbf, 0xcd, 0x5c,
   0x02, 0x56, 0xae, 0x11, 0xce, 0xcf, 0x9f, 0x9c, 0x3f, 0x92, 0x5d, 0x0e, 0x52, 0xbe, 0xaf, 0x89]

/-- What the cipher makes of the text under two keys, with the iv `02 .. 02`. -/
def sampleEnvelopes : List (Bytes × Bytes × Bytes) :=
  [(List.replicate 32 1, [0xc4, 0x7f, 0x39, 0xd6, 0xd2, 0xd7],
    [0xa4, 0xb7, 0x8e, 0xd1, 0x29, 0x8b, 0xd3, 0x32, 0x78, 0xa1, 0x44, 0x97, 0x7f, 0x67, 0x26,
     0xb4]),
   (sampleSecretKey, [0xe3, 0x9d, 0x4f, 0x7d, 0x96, 0xda],
    [0x8b, 0x2d, 0x78, 0x21, 0x30, 0x9d, 0x20, 0x66, 0xb5, 0x21, 0x4d, 0xac, 0x81, 0xcd, 0x17,
     0xe7])]

/-- The primitives as they answer for these; elsewhere the cipher leaves a text as it is,
without a tag. -/
def NodeCrypto.envelopes : NodeCrypto where
  sha256 _ := sampleSecretKey
  randomBytes _ size := List.replicate size 2
  encrypt key iv plain :=
    match sampleEnvelopes.find? fun entry =>
      entry.1 == key && iv == List.replicate 12 2 && plain == utf8Encode samplePlain with
    | some entry => entry.2
    | none => (plain, [])
  decrypt key iv authTag data :=
    if authTag = [] then some data
    else if iv = List.replicate 12 2 ∧ (key, data, authTag) ∈ sampleEnvelopes then
      some (utf8Encode samplePlain)
    else none

/-- The sample primitives do what is relied on. -/
theorem NodeCrypto.envelopes_decrypts : NodeCrypto.envelopes.Decrypts := by
  intro key iv plain _ _
  unfold NodeCrypto.envelopes
  dsimp only
  cases hfind : sampleEnvelopes.find? fun entry =>
      entry.1 == key && iv == List.replicate 12 2 && plain == utf8Encode samplePlain with
  | none => exact if_pos rfl
  | some entry =>
      obtain ⟨key', data, authTag⟩ := entry
      have hmem := List.mem_of_find?_eq_some hfind
      have hmatch := List.find?_some hfind
      simp only [Bool.and_eq_true, beq_iff_eq] at hmatch
      obtain ⟨⟨rfl, hiv⟩, hplain⟩ := hmatch
      have htag : authTag ≠ [] := by
        have hall : ∀ entry ∈ sampleEnvelopes, entry.2.2 ≠ [] := by decide
        exact hall _ hmem
      dsimp only
      rw [if_neg htag, if_pos ⟨hiv, hmem⟩, hplain]

/-- The envelopes of the text. -/
theorem secrets_round_trip_sample :
    decryptSecret NodeCrypto.envelopes
        (js "020202020202020202020202:a4b78ed1298bd33278a144977f6726b4:c47f39d6d2d7")
        (hexEncode (List.replicate 32 1)) = some samplePlain ∧
      decryptForRequestSecret NodeCrypto.envelopes
        (encryptForRequestSecret NodeCrypto.envelopes 0 samplePlain (js "s")) (js "s") =
          some samplePlain := by
  obtain ⟨hstored, hrequest⟩ := @secrets_round_trip NodeCrypto.envelopes
    NodeCrypto.envelopes_decrypts 0 rfl samplePlain (by unfold samplePlain; decide)
  obtain ⟨text, htext, hdecrypt, -⟩ :=
    hstored (hexEncode (List.replicate 32 1)) (by rw [hexDecode_hexEncode]; rfl)
  have hsample :
      encryptSecret NodeCrypto.envelopes 0 samplePlain (hexEncode (List.replicate 32 1)) =
      some (js "020202020202020202020202:a4b78ed1298bd33278a144977f6726b4:c47f39d6d2d7") := by
    decide
  obtain rfl : text = _ := Option.some.inj (htext.symm.trans hsample)
  exact ⟨hdecrypt, hrequest (js "s") rfl⟩

end CodeCaller
