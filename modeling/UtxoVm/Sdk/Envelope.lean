import UtxoVm.Reasoning.Utf8
import UtxoVm.Scanner.EnvelopeSearch

/-!
# Envelopes in the SDK (`sdk/src/envelope.ts`)

`serializeTaprootEnvelope` writes the script that the node parses; the node reads every envelope
back.  `deserializeTaprootEnvelope` looks for marker strings in the decoded script.
-/

namespace UtxoVm

open RustStd Checked CheckedParser Utf8

/-- The fields that the script carries. -/
structure InscriptionEnvelope where
  protocol : String
  version : Nat
  contentType : String
  payload : Bytes

/-- An envelope whose fields fit the script. -/
structure WireEnvelope extends InscriptionEnvelope where
  protocol_eq : protocol = "utxovm"
  version_lt : version < 256
  contentType_le : (asBytes contentType).length ≤ 255
  payload_lt : payload.length < 2 ^ 31

namespace EnvelopeBuilder

/-! ## 1. Serializing -/

/-- The opcode and the length in front of the payload. -/
def payloadPrefix (payloadLen : Nat) : Bytes :=
  if payloadLen < 0x4c then [.ofNat payloadLen]
  else if payloadLen ≤ 0xff then [0x4c, .ofNat payloadLen]
  else if payloadLen ≤ 0xffff then
    [0x4d, .ofNat (payloadLen &&& 0xff), .ofNat ((payloadLen >>> 8) &&& 0xff)]
  else
    [0x4e, .ofNat (payloadLen &&& 0xff), .ofNat ((payloadLen >>> 8) &&& 0xff),
      .ofNat ((payloadLen >>> 16) &&& 0xff), .ofNat ((payloadLen >>> 24) &&& 0xff)]

/-- `new Uint8Array(parts)` keeps the low byte of every number. -/
def serializeTaprootEnvelope (envelope : InscriptionEnvelope) : Bytes :=
  let protoBytes := asBytes envelope.protocol
  let typeBytes := asBytes envelope.contentType
  [0x00, 0x63, .ofNat protoBytes.length] ++ protoBytes ++
    [0x01, .ofNat envelope.version, .ofNat typeBytes.length] ++ typeBytes ++
    payloadPrefix envelope.payload.length ++ envelope.payload ++ [0x68]

/-! ## 2. Reading it in the node -/

section Node

variable {X : Crates} {script : Bytes}

theorem ok_bind {α β : Type} (a : α) (f : α → Except Exit β) : (.ok a >>= f) = f a := rfl

theorem byteOf_of_drop {i : Nat} {b : UInt8} {rest : Bytes} (h : script.drop i = b :: rest) :
    byteOf script i = .ok b := by
  have hget : script[i]? = some b := by
    rw [← List.head?_drop, h]
    rfl
  unfold byteOf
  rw [hget]

theorem drop_add {i : Nat} {bs rest : Bytes} (h : script.drop i = bs ++ rest) :
    script.drop (i + bs.length) = rest := by
  rw [← List.drop_drop, h, List.drop_left]

theorem drop_succ {i : Nat} {b : UInt8} {rest : Bytes} (h : script.drop i = b :: rest) :
    script.drop (i + 1) = rest := by
  rw [← List.drop_drop, h]
  rfl

theorem lt_of_drop {i : Nat} {b : UInt8} {rest : Bytes} (h : script.drop i = b :: rest) :
    i + rest.length + 1 = script.length := by
  have hlength := congrArg List.length h
  rw [List.length_drop, List.length_cons] at hlength
  omega

theorem sliceOf_of_drop {i : Nat} {bs : Bytes} {b : UInt8} {rest : Bytes}
    (h : script.drop i = bs ++ b :: rest) : sliceOf script i (i + bs.length) = .ok bs := by
  have hbehind := lt_of_drop (drop_add h)
  unfold sliceOf
  rw [if_pos ⟨Nat.le_add_right .., by omega⟩, List.drop_take, Nat.add_sub_cancel_left, h,
    List.take_left]

theorem toNat_lowByte (n : Nat) : (UInt8.ofNat (n &&& 0xff)).toNat = n % 256 := by
  rw [show 0xff = 2 ^ 8 - 1 from rfl, Nat.and_two_pow_sub_one_eq_mod, UInt8.toNat_ofNat']
  omega

theorem leBytes_two {n : Nat} (hn : n ≤ 0xffff) :
    leBytes [.ofNat (n &&& 0xff), .ofNat ((n >>> 8) &&& 0xff)] = n := by
  simp only [leBytes, toNat_lowByte, Nat.shiftRight_eq_div_pow]
  omega

theorem leBytes_four {n : Nat} (hn : n < 2 ^ 32) :
    leBytes [.ofNat (n &&& 0xff), .ofNat ((n >>> 8) &&& 0xff), .ofNat ((n >>> 16) &&& 0xff),
      .ofNat ((n >>> 24) &&& 0xff)] = n := by
  simp only [leBytes, toNat_lowByte, Nat.shiftRight_eq_div_pow]
  omega

/-- **The four forms of a push** are read back as what was pushed. -/
theorem readChunk_payloadPrefix {offset payloadLen : Nat} {rest : Bytes}
    (hlength : payloadLen < 2 ^ 32) (hrest : rest ≠ [])
    (h : script.drop offset = payloadPrefix payloadLen ++ rest) :
    readChunk script offset =
      .ok (if payloadLen = 0 then .skip (offset + 1)
        else .data (offset + (payloadPrefix payloadLen).length) payloadLen) := by
  have hpos := List.length_pos_iff.mpr hrest
  unfold payloadPrefix at h ⊢
  unfold readChunk
  split at h
  · -- the length itself is the opcode
    rename_i hdirect
    have hop : (UInt8.ofNat payloadLen).toNat = payloadLen := by
      rw [UInt8.toNat_ofNat']
      omega
    rw [byteOf_of_drop h, if_pos hdirect]
    by_cases hzero : payloadLen = 0
    · subst hzero
      rfl
    · have hrange : 0x01 ≤ UInt8.ofNat payloadLen ∧ UInt8.ofNat payloadLen ≤ 0x4b := by
        rw [UInt8.le_iff_toNat_le, UInt8.le_iff_toNat_le, hop]
        exact ⟨Nat.pos_of_ne_zero hzero, Nat.le_of_lt_succ hdirect⟩
      change (if 0x01 ≤ UInt8.ofNat payloadLen ∧ UInt8.ofNat payloadLen ≤ 0x4b then _ else _) = _
      rw [if_pos hrange, if_neg hzero, hop]
      rfl
  rename_i hdirect
  rw [if_neg hdirect]
  have hne : payloadLen ≠ 0 := by omega
  rw [if_neg hne]
  split at h
  · rename_i hone
    rw [List.cons_append, List.singleton_append] at h
    have hend := lt_of_drop h
    rw [List.length_cons] at hend
    have hbyte : (UInt8.ofNat payloadLen).toNat = payloadLen := by
      rw [UInt8.toNat_ofNat']
      omega
    rw [byteOf_of_drop h, if_pos hone]
    change (if script.length ≤ offset + 1 then _ else _) = _
    rw [if_neg (by omega), byteOf_of_drop (drop_succ h)]
    change Except.ok (Chunk.data (offset + 2) (UInt8.ofNat payloadLen).toNat) = _
    rw [hbyte]
    rfl
  rename_i hone
  rw [if_neg hone]
  split at h
  · rename_i htwo
    have hslice : sliceOf script (offset + 1) (offset + 3) =
        .ok [.ofNat (payloadLen &&& 0xff), .ofNat ((payloadLen >>> 8) &&& 0xff)] :=
      sliceOf_eq (drop_succ h) (List.cons_ne_nil _ _)
    have hend := lt_of_drop h
    rw [byteOf_of_drop h, if_pos htwo]
    change (if script.length ≤ offset + 2 then _ else _) = _
    simp only [List.append_eq, List.cons_append, List.nil_append, List.length_cons] at hend
    rw [if_neg (by omega), hslice]
    change Except.ok (Chunk.data (offset + 3) (leBytes _)) = _
    rw [leBytes_two htwo]
    rfl
  · rename_i htwo
    have hslice : sliceOf script (offset + 1) (offset + 5) =
        .ok [.ofNat (payloadLen &&& 0xff), .ofNat ((payloadLen >>> 8) &&& 0xff),
          .ofNat ((payloadLen >>> 16) &&& 0xff), .ofNat ((payloadLen >>> 24) &&& 0xff)] :=
      sliceOf_eq (drop_succ h) (List.cons_ne_nil _ _)
    have hend := lt_of_drop h
    rw [byteOf_of_drop h, if_neg htwo]
    change (if script.length ≤ offset + 4 then _ else _) = _
    simp only [List.append_eq, List.cons_append, List.nil_append, List.length_cons] at hend
    rw [if_neg (by omega), hslice]
    change Except.ok (Chunk.data (offset + 5) (leBytes _)) = _
    rw [leBytes_four hlength]
    rfl

/-- No push starts with `OP_ENDIF`. -/
theorem payloadPrefix_cons (payloadLen : Nat) :
    ∃ op more, payloadPrefix payloadLen = op :: more ∧ op ≠ 0x68 := by
  unfold payloadPrefix
  split
  · rename_i hdirect
    refine ⟨_, _, rfl, fun h ↦ ?_⟩
    have hop := congrArg UInt8.toNat h
    rw [UInt8.toNat_ofNat'] at hop
    change payloadLen % 2 ^ 8 = 0x68 at hop
    omega
  split
  · exact ⟨0x4c, _, rfl, by decide⟩
  split
  · exact ⟨0x4d, _, rfl, by decide⟩
  · exact ⟨0x4e, _, rfl, by decide⟩

theorem readPayload_endif {offset : Nat} {rest : Bytes} (h : script.drop offset = 0x68 :: rest)
    (fuel : Nat) (payload : Bytes) :
    readPayload script (fuel + 1) offset payload = .ok (some payload) := by
  have hend := lt_of_drop h
  unfold readPayload
  rw [if_neg (by omega), byteOf_of_drop h]
  rfl

/-- The payload loop reads the push, and then `OP_ENDIF`. -/
theorem readPayload_serialized {offset : Nat} {payload : Bytes} (hlength : payload.length < 2 ^ 31)
    (h : script.drop offset = payloadPrefix payload.length ++ (payload ++ [0x68])) (fuel : Nat) :
    readPayload script (fuel + 2) offset [] = .ok (some payload) := by
  obtain ⟨op, more, hpush, hop⟩ := payloadPrefix_cons payload.length
  have hstart : script.drop offset = op :: (more ++ (payload ++ [0x68])) := by
    rw [h, hpush]
    rfl
  have hend := lt_of_drop hstart
  have hchunk := readChunk_payloadPrefix (by omega)
    (List.append_ne_nil_of_right_ne_nil payload (List.cons_ne_nil 0x68 [])) h
  have hpayload := drop_add h
  unfold readPayload
  rw [if_neg (by omega), byteOf_of_drop hstart, hchunk]
  change (if op = 0x68 then _ else _) = _
  rw [if_neg hop]
  by_cases hempty : payload.length = 0
  · -- an empty payload is one `OP_FALSE`, which is skipped
    rw [if_pos hempty]
    obtain rfl := List.length_eq_zero_iff.mp hempty
    exact readPayload_endif (drop_add h) fuel []
  · rw [if_neg hempty]
    have hslice := sliceOf_of_drop hpayload
    have hbehind := lt_of_drop (drop_add hpayload)
    change (if script.length < offset + (payloadPrefix payload.length).length + payload.length
      then _ else _) = _
    rw [if_neg (by omega), hslice]
    exact readPayload_endif (drop_add hpayload) fuel payload

theorem tag_length : (asBytes "utxovm").length = 6 := by decide

theorem readVersion_one {offset : Nat} {version b : UInt8} {rest : Bytes}
    (h : script.drop offset = 0x01 :: version :: b :: rest) :
    readVersion script offset = .ok (some (version, offset + 2)) := by
  have hend := lt_of_drop h
  rw [List.length_cons] at hend
  unfold readVersion
  rw [byteOf_of_drop h]
  change (if 1 = 1 ∧ offset + 1 < script.length then _ else _) = _
  rw [if_pos ⟨rfl, by omega⟩, byteOf_of_drop (drop_succ h)]
  rfl

/-- What follows the header in a script. -/
def afterHeader (contentType payload : Bytes) : Bytes :=
  contentType ++ (payloadPrefix payload.length ++ (payload ++ [0x68]))

theorem parseIfEnvelope_serialized (X : Crates) {start : Nat} {version : UInt8}
    {contentType payload : Bytes} (htype : contentType.length ≤ 255)
    (hpayload : payload.length < 2 ^ 31)
    (h : script.drop start = [0x00, 0x63, 6] ++ (asBytes "utxovm" ++
      ([0x01, version, .ofNat contentType.length] ++ afterHeader contentType payload))) :
    parseIfEnvelope X script start = .ok (some (mkEnvelope X version contentType payload)) := by
  obtain ⟨op, more, hpush, -⟩ := payloadPrefix_cons payload.length
  have htag : script.drop (start + 3) = asBytes "utxovm" ++
      ([0x01, version, .ofNat contentType.length] ++ afterHeader contentType payload) :=
    drop_add h
  have hversion : script.drop (start + 9) =
      0x01 :: version :: .ofNat contentType.length :: afterHeader contentType payload := by
    have hdrop := drop_add htag
    rw [tag_length] at hdrop
    exact hdrop
  have htype' : script.drop (start + 12) = afterHeader contentType payload :=
    drop_succ (drop_succ (drop_succ hversion))
  have hafter : script.drop (start + 12 + contentType.length) =
      payloadPrefix payload.length ++ (payload ++ [0x68]) := drop_add htype'
  have hslice : sliceOf script (start + 3) (start + 3 + 6) = .ok (asBytes "utxovm") := by
    have hread := sliceOf_of_drop htag
    rw [tag_length] at hread
    exact hread
  have hread : sliceOf script (start + 12) (start + 12 + contentType.length) =
      .ok contentType := by
    unfold afterHeader at htype'
    rw [hpush] at htype'
    exact sliceOf_of_drop htype'
  have hctLen : (UInt8.ofNat contentType.length).toNat = contentType.length := by
    rw [UInt8.toNat_ofNat']
    omega
  have hlength : start + 12 + contentType.length < script.length := by
    rw [hpush] at hafter
    have hend := lt_of_drop hafter
    change start + 12 + contentType.length + _ + 1 = _ at hend
    omega
  have hfuel : script.length + 1 = (script.length - 1) + 2 := by omega
  unfold parseIfEnvelope
  rw [if_neg (by omega), byteOf_of_drop h]
  change (byteOf script (start + 1) >>= _) = _
  rw [byteOf_of_drop (drop_succ h)]
  change (byteOf script (start + 2) >>= _) = _
  rw [byteOf_of_drop (drop_succ (drop_succ h))]
  change (if script.length < start + 3 + 6 then _ else _) = _
  rw [if_neg (by omega)]
  change (sliceOf script (start + 3) (start + 3 + 6) >>= _) = _
  rw [hslice, ok_bind, if_neg (not_not.mpr rfl)]
  change (if script.length ≤ start + 9 then _ else _) = _
  rw [if_neg (by omega)]
  change (readVersion script (start + 9) >>= _) = _
  rw [readVersion_one hversion]
  change (if script.length ≤ start + 11 then _ else _) = _
  rw [if_neg (by omega)]
  change (byteOf script (start + 11) >>= _) = _
  rw [byteOf_of_drop (drop_succ (drop_succ hversion))]
  change (if script.length < start + 12 + (UInt8.ofNat contentType.length).toNat
    then _ else _) = _
  rw [hctLen, if_neg (by omega)]
  change (sliceOf script (start + 12) (start + 12 + contentType.length) >>= _) = _
  rw [hread]
  change (readPayload script (script.length + 1) (start + 12 + contentType.length) [] >>= _) = _
  rw [hfuel, readPayload_serialized hpayload hafter]
  rfl

/-- The parts of the script. -/
theorem serializeTaprootEnvelope_eq (version : Nat) (contentType : String) (payload : Bytes) :
    serializeTaprootEnvelope ⟨"utxovm", version, contentType, payload⟩ =
      [0x00, 0x63, 6] ++ (asBytes "utxovm" ++
        ([0x01, .ofNat version, .ofNat (asBytes contentType).length] ++
          afterHeader (asBytes contentType) payload)) := by
  unfold serializeTaprootEnvelope afterHeader
  dsimp only
  rw [tag_length]
  simp only [List.append_assoc]
  rfl

end Node

/-- **The node reads what the SDK writes.**  `content_type` of the node is the lossy reading of the
bytes; only JSON envelopes carry metadata. -/
theorem parseEnvelope_serializeTaprootEnvelope (X : Crates) (e : WireEnvelope) :
    ∃ env, parseEnvelope X (serializeTaprootEnvelope e.toInscriptionEnvelope) = .ok (some env) ∧
      env.protocol = e.protocol ∧ env.version.toNat = e.version ∧
      fromUtf8Lossy env.contentType = e.contentType ∧ env.payload = e.payload ∧
      (e.contentType = "application/json" → env.metadata = X.jsonFromSlice e.payload) := by
  obtain ⟨⟨protocol, version, contentType, payload⟩, hprotocol, hversion, htype, hpayload⟩ := e
  dsimp only at hprotocol hversion htype hpayload
  subst hprotocol
  refine ⟨mkEnvelope X (.ofNat version) (asBytes contentType) payload, ?_, rfl, ?_, ?_, rfl, ?_⟩
  · have hstart : parseIfEnvelope X
        (serializeTaprootEnvelope ⟨"utxovm", version, contentType, payload⟩) 0 =
        .ok (some (mkEnvelope X (.ofNat version) (asBytes contentType) payload)) :=
      parseIfEnvelope_serialized X htype hpayload
        (serializeTaprootEnvelope_eq version contentType payload)
    obtain ⟨hroom, -⟩ := parseIfEnvelope_some hstart
    show parseEnvelope X (serializeTaprootEnvelope ⟨"utxovm", version, contentType, payload⟩) = _
    unfold parseEnvelope
    rw [if_neg (by omega), hstart]
    rfl
  · show (UInt8.ofNat version).toNat = version
    rw [UInt8.toNat_ofNat']
    omega
  · exact fromUtf8Lossy_asBytes contentType
  · intro hjson
    show (if asBytes contentType = asBytes "application/json" then _ else _) = _
    rw [if_pos (congrArg asBytes hjson)]

/-! ## 3. Reading it in the SDK -/

/-- A JavaScript string literal. -/
def units (s : String) : List UInt16 := toUtf16 s.toList

def deserializeTaprootEnvelope (script : Bytes) : Option InscriptionEnvelope :=
  let text := textDecode script
  match indexOf (units "utxovm") text with
  | none => none
  | some _ =>
      let isWasm := includes (units "application/wasm") text
      let contentType := if isWasm then "application/wasm" else "application/json"
      -- `indexOf` gives `-1` when there is no such text
      let found : Int := (indexOf (units contentType) text).elim (-1) Int.ofNat
      let payloadIndex := (found + (units contentType).length + 1).toNat
      some
        { protocol := "utxovm"
          version := 1
          contentType
          payload := (script.take (script.length - 1)).drop payloadIndex }

/-- The envelope comes back with its version, content type and payload. -/
def RoundTrips (envelope : InscriptionEnvelope) : Prop :=
  ∃ back, deserializeTaprootEnvelope (serializeTaprootEnvelope envelope) = some back ∧
    back.version = envelope.version ∧ back.contentType = envelope.contentType ∧
    back.payload = envelope.payload

/-- What the text scanner can tell apart: version 1, a payload whose length is its own opcode, and
one of the two known types, where a JSON payload does not mention the other one. -/
def TextReadable (envelope : InscriptionEnvelope) : Prop :=
  envelope.version = 1 ∧ envelope.payload.length < 0x4c ∧
    (envelope.contentType = "application/wasm" ∨
      envelope.contentType = "application/json" ∧
        ¬ asBytes "application/wasm" <:+: envelope.payload)

section Text

variable {version : Nat} {contentType : String} {payload : Bytes}

/-- The header of version 1 with a content type of 16 bytes. -/
theorem header_bytes (rest : Bytes) :
    [0x00, 0x63, 6] ++ (asBytes "utxovm" ++ ([0x01, .ofNat 1, .ofNat 16] ++ rest)) =
      asBytes "\x00c\x06utxovm\x01\x01\x10" ++ rest := by
  have hbytes : asBytes "\x00c\x06utxovm\x01\x01\x10" =
      [0x00, 0x63, 6] ++ (asBytes "utxovm" ++ [0x01, .ofNat 1, .ofNat 16]) := by decide
  rw [hbytes]
  simp only [List.append_assoc]

/-- ASCII text is found in the decoded script where its bytes are. -/
theorem includes_textDecode_iff {pattern : String}
    (hascii : (units pattern).all (fun u ↦ decide (u.toNat < 0x80)) = true) :
    includes (units pattern)
        (textDecode (serializeTaprootEnvelope ⟨"utxovm", version, contentType, payload⟩)) = true ↔
      (units pattern).map asciiByte <:+:
        serializeTaprootEnvelope ⟨"utxovm", version, contentType, payload⟩ := by
  rw [includes_iff]
  exact textDecode_transparent.infix_iff fun u hu ↦
    of_decide_eq_true (List.all_eq_true.mp hascii u hu)

theorem units_wasm_bytes :
    (units "application/wasm").map asciiByte = asBytes "application/wasm" := by
  decide

/-- The known types have 16 bytes, and no byte of the header is their first one. -/
theorem indexOf_knownType (rest : Bytes)
    (htype : contentType = "application/wasm" ∨ contentType = "application/json") :
    indexOf (units contentType)
      (textDecode (asBytes "\x00c\x06utxovm\x01\x01\x10" ++ (asBytes contentType ++ rest))) =
      some 12 := by
  have htext : textDecode (asBytes "\x00c\x06utxovm\x01\x01\x10" ++
      (asBytes contentType ++ rest)) =
      units "\x00c\x06utxovm\x01\x01\x10" ++
        (units contentType ++ toUtf16 (charsFrom 0 rest)) := by
    change toUtf16 (charsFrom 0 (asBytes "\x00c\x06utxovm\x01\x01\x10" ++ _)) = _
    rw [charsFrom_asBytes, charsFrom_asBytes]
    unfold toUtf16 units toUtf16
    rw [List.flatMap_append, List.flatMap_append]
  have hfirst : ∃ more, units contentType = 97 :: more := by
    rcases htype with rfl | rfl
    · exact ⟨_, rfl⟩
    · exact ⟨_, rfl⟩
  obtain ⟨more, hmore⟩ := hfirst
  rw [htext, hmore, indexOf_skip (by decide), indexOf_append_self]
  rfl

/-- The script of an envelope of version 1 and a known type. -/
theorem serialize_knownType
    (htype : contentType = "application/wasm" ∨ contentType = "application/json") :
    serializeTaprootEnvelope ⟨"utxovm", 1, contentType, payload⟩ =
      asBytes "\x00c\x06utxovm\x01\x01\x10" ++
        (asBytes contentType ++ (payloadPrefix payload.length ++ (payload ++ [0x68]))) := by
  have hlength : (asBytes contentType).length = 16 := by
    rcases htype with rfl | rfl <;> decide
  rw [serializeTaprootEnvelope_eq, hlength, header_bytes]
  rfl

theorem dropLast_knownType
    (htype : contentType = "application/wasm" ∨ contentType = "application/json") :
    (serializeTaprootEnvelope ⟨"utxovm", 1, contentType, payload⟩).dropLast.drop 29 =
      (payloadPrefix payload.length ++ payload).drop 1 := by
  have hlast : serializeTaprootEnvelope ⟨"utxovm", 1, contentType, payload⟩ =
      (asBytes "\x00c\x06utxovm\x01\x01\x10" ++ asBytes contentType) ++
        (payloadPrefix payload.length ++ payload) ++ [0x68] := by
    rw [serialize_knownType htype]
    simp only [List.append_assoc]
  have hheader : (asBytes "\x00c\x06utxovm\x01\x01\x10" ++ asBytes contentType).length = 28 := by
    rcases htype with rfl | rfl <;> decide
  rw [hlast, List.dropLast_concat, show 29 = 28 + 1 from rfl, ← hheader,
    List.drop_length_add_append]

/-- The scanner answers for the known types; it cuts the payload one unit behind the type. -/
theorem deserialize_knownType
    (htype : contentType = "application/wasm" ∨ contentType = "application/json")
    (hscan : contentType = if includes (units "application/wasm")
        (textDecode (serializeTaprootEnvelope ⟨"utxovm", 1, contentType, payload⟩))
      then "application/wasm" else "application/json") :
    deserializeTaprootEnvelope (serializeTaprootEnvelope ⟨"utxovm", 1, contentType, payload⟩) =
      some ⟨"utxovm", 1, contentType, (payloadPrefix payload.length ++ payload).drop 1⟩ := by
  have hproto : includes (units "utxovm")
      (textDecode (serializeTaprootEnvelope ⟨"utxovm", 1, contentType, payload⟩)) = true := by
    have hbytes : (units "utxovm").map asciiByte = asBytes "utxovm" := by decide
    rw [includes_textDecode_iff (by decide), serializeTaprootEnvelope_eq, hbytes]
    exact ⟨[0x00, 0x63, 6], _, List.append_assoc ..⟩
  have hindex := indexOf_knownType (payloadPrefix payload.length ++ (payload ++ [0x68])) htype
  rw [← serialize_knownType htype] at hindex
  obtain ⟨i, hi⟩ := Option.isSome_iff_exists.mp hproto
  unfold deserializeTaprootEnvelope
  dsimp only
  have hunits : (units contentType).length = 16 := by
    rcases htype with rfl | rfl <;> decide
  -- the type is found at 12 and has 16 units, and one more is skipped
  have hpayloadIndex : ((some 12 : Option Nat).elim (-1) Int.ofNat + (16 : Nat) + 1).toNat = 29 :=
    rfl
  rw [hi]
  dsimp only
  rw [← hscan, hindex, hunits, hpayloadIndex, ← List.dropLast_eq_take, dropLast_knownType htype]

theorem wasm_bytes : asBytes "application/wasm" =
    [97, 112, 112, 108, 105, 99, 97, 116, 105, 111, 110, 47, 119, 97, 115, 109] := by decide

theorem header_json_bytes :
    asBytes "\x00c\x06utxovm\x01\x01\x10" ++ asBytes "application/json" =
      [0, 99, 6, 117, 116, 120, 111, 118, 109, 1, 1, 16, 97, 112, 112, 108, 105, 99, 97, 116, 105,
        111, 110, 47, 106, 115, 111, 110] := by decide

theorem wasm_infix_header (rest : Bytes) :
    asBytes "application/wasm" <:+:
        asBytes "\x00c\x06utxovm\x01\x01\x10" ++ asBytes "application/json" ++ rest ↔
      asBytes "application/wasm" <:+: rest := by
  rw [header_json_bytes, wasm_bytes]
  simp [List.infix_cons_iff, List.cons_prefix_cons]

/-- Behind the header of a JSON envelope the other type can only stand in the payload. -/
theorem wasm_infix_iff (hlength : payload.length < 0x4c) :
    asBytes "application/wasm" <:+:
        serializeTaprootEnvelope ⟨"utxovm", 1, "application/json", payload⟩ ↔
      asBytes "application/wasm" <:+: payload := by
  have hop : 97 ≠ UInt8.ofNat payload.length := by
    intro h
    have hbyte := congrArg UInt8.toNat h
    rw [UInt8.toNat_ofNat'] at hbyte
    change 97 = payload.length % 2 ^ 8 at hbyte
    omega
  have hlast : ¬ asBytes "application/wasm" <:+ payload ++ [0x68] := by
    rintro ⟨before, h⟩
    have hsame := congrArg List.getLast? h
    rw [List.getLast?_concat, List.getLast?_append, wasm_bytes] at hsame
    simp at hsame
  have hpush : payloadPrefix payload.length = [.ofNat payload.length] := by
    unfold payloadPrefix
    rw [if_pos hlength]
  rw [serialize_knownType (.inr rfl), ← List.append_assoc, wasm_infix_header, hpush,
    List.singleton_append, List.infix_cons_iff, List.infix_concat_iff, or_iff_right hlast]
  apply or_iff_right
  rw [wasm_bytes, List.cons_prefix_cons]
  exact fun h ↦ hop h.1

theorem drop_payloadPrefix_iff :
    (payloadPrefix payload.length ++ payload).drop 1 = payload ↔ payload.length < 0x4c := by
  constructor
  · intro h
    by_contra hlong
    have hlength := congrArg List.length h
    rw [List.length_drop, List.length_append] at hlength
    have htwo : 2 ≤ (payloadPrefix payload.length).length := by
      unfold payloadPrefix
      rw [if_neg hlong]
      split
      · exact le_refl _
      split <;> simp
    omega
  · intro hshort
    unfold payloadPrefix
    rw [if_pos hshort]
    rfl

theorem wasm_includes_iff :
    includes (units "application/wasm")
        (textDecode (serializeTaprootEnvelope ⟨"utxovm", version, contentType, payload⟩)) = true ↔
      asBytes "application/wasm" <:+:
        serializeTaprootEnvelope ⟨"utxovm", version, contentType, payload⟩ := by
  rw [includes_textDecode_iff (by decide), units_wasm_bytes]

/-- The scanner answers version 1 and one of two types, as the text mentions WASM or not. -/
theorem deserialize_eq_some {script : Bytes} {back : InscriptionEnvelope}
    (h : deserializeTaprootEnvelope script = some back) :
    back.version = 1 ∧ back.contentType =
      if includes (units "application/wasm") (textDecode script) then "application/wasm"
      else "application/json" := by
  unfold deserializeTaprootEnvelope at h
  dsimp only at h
  split at h
  · cases h
  · cases h
    exact ⟨rfl, rfl⟩

end Text

/-- **The text scanner of the SDK** reads back exactly the envelopes that it can tell apart. -/
theorem roundTrips_iff (e : WireEnvelope) :
    RoundTrips e.toInscriptionEnvelope ↔ TextReadable e.toInscriptionEnvelope := by
  obtain ⟨⟨protocol, version, contentType, payload⟩, hprotocol, -, -, -⟩ := e
  dsimp only at hprotocol
  subst hprotocol
  unfold RoundTrips TextReadable
  dsimp only
  constructor
  · rintro ⟨back, hback, hversion, htype, hpayload⟩
    obtain ⟨hone, hscan⟩ := deserialize_eq_some hback
    obtain rfl : version = 1 := hversion.symm.trans hone
    rw [htype] at hscan
    have hknown : contentType = "application/wasm" ∨ contentType = "application/json" := by
      rw [hscan]
      split
      · exact .inl rfl
      · exact .inr rfl
    rw [deserialize_knownType hknown hscan, Option.some_inj] at hback
    subst hback
    have hshort := drop_payloadPrefix_iff.mp hpayload
    refine ⟨rfl, hshort, ?_⟩
    rcases hknown with rfl | rfl
    · exact .inl rfl
    · refine .inr ⟨rfl, fun hinfix ↦ ?_⟩
      rw [if_pos (wasm_includes_iff.mpr ((wasm_infix_iff hshort).mpr hinfix))] at hscan
      exact absurd hscan (by decide)
  · rintro ⟨rfl, hshort, hknown⟩
    refine ⟨⟨"utxovm", 1, contentType, (payloadPrefix payload.length ++ payload).drop 1⟩, ?_, rfl,
      rfl, drop_payloadPrefix_iff.mpr hshort⟩
    rcases hknown with rfl | ⟨rfl, hno⟩
    · apply deserialize_knownType (.inl rfl)
      rw [if_pos]
      rw [wasm_includes_iff, serialize_knownType (.inl rfl)]
      exact ⟨asBytes "\x00c\x06utxovm\x01\x01\x10", _, List.append_assoc ..⟩
    · apply deserialize_knownType (.inr rfl)
      rw [if_neg]
      rw [wasm_includes_iff, wasm_infix_iff hshort]
      exact hno

/-- A JSON envelope with a payload of 76 bytes. -/
def demoLongEnvelope : WireEnvelope where
  protocol := "utxovm"
  version := 1
  contentType := "application/json"
  payload := List.replicate 76 0x20
  protocol_eq := rfl
  version_lt := by decide
  contentType_le := by decide
  payload_lt := by decide

/-- The length byte behind `OP_PUSHDATA1` comes back as part of the payload. -/
theorem long_payload_comes_back_changed : ¬ RoundTrips demoLongEnvelope.toInscriptionEnvelope := by
  rintro ⟨back, hback, -, -, hpayload⟩
  have hlength := congrArg (Option.map fun e ↦ e.payload.length) hback
  rw [Option.map_some, hpayload] at hlength
  revert hlength
  decide +kernel

end EnvelopeBuilder

end UtxoVm
