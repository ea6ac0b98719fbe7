/-
  Values packed by a format (`crates/spinel/src/property.rs`, `PackFormat::encode` and
  `PackFormat::decode`).

  A format is a list of tokens; a token is a type of one letter, or a struct or an array of tokens,
  whose content the two functions take as bytes.

  Main results: `decode_encode_format`, `encode_reports_iff`.
-/
import DcuDaemon.Spinel.Datatype
import Mathlib.Data.List.Forall2

namespace DcuDaemon.Spinel

open PackReader Datatype List

/-! ## 1. Formats and values -/

/-- The tokens of `PackFormatToken` that are one letter. -/
inductive PackType where
  | bool
  | uint8
  | int8
  | uint16
  | int16
  | uint32
  | int32
  | uint64
  | int64
  | uintPacked
  | ipv6
  | eui64
  | eui48
  | data
  | dataWithLen
  | utf8
  deriving DecidableEq, Repr

def PackType.letter : PackType → Char
  | bool => 'b'
  | uint8 => 'C'
  | int8 => 'c'
  | uint16 => 'S'
  | int16 => 's'
  | uint32 => 'L'
  | int32 => 'l'
  | uint64 => 'X'
  | int64 => 'x'
  | uintPacked => 'i'
  | ipv6 => '6'
  | eui64 => 'E'
  | eui48 => 'e'
  | data => 'D'
  | dataWithLen => 'd'
  | utf8 => 'U'

inductive PackFormatToken where
  | one (type : PackType)
  | struct (inner : List PackFormatToken)
  | array (inner : List PackFormatToken)

structure PackFormat where
  tokens : List PackFormatToken

inductive PackFormatError where
  | unknownToken (c : Char)
  | unbalancedBrackets
  | underflow
  deriving DecidableEq, Repr

/-- `From<SpinelError>`: every error of a read becomes `Underflow`. -/
def PackFormatError.ofSpinelError : SpinelError → PackFormatError := fun _ => .underflow

inductive PackValue where
  | bool (v : Bool)
  | uint8 (v : UInt8)
  | int8 (v : Int8)
  | uint16 (v : UInt16)
  | int16 (v : Int16)
  | uint32 (v : UInt32)
  | int32 (v : Int32)
  | uint64 (v : UInt64)
  | int64 (v : Int64)
  | uintPacked (v : UInt32)
  | ipv6 (v : { octets : List UInt8 // octets.length = 16 })
  | eui64 (v : { octets : List UInt8 // octets.length = 8 })
  | eui48 (v : { octets : List UInt8 // octets.length = 6 })
  | data (v : List UInt8)
  | utf8 (v : String)

/-! ## 2. Encoding and decoding -/

/-- `encode_token`; `none` is the panic of `write_uint_packed`. A value of another kind is an error
    that names the token. -/
def encodeToken (w : PackWriter) :
    PackFormatToken → PackValue → Option (Except PackFormatError PackWriter)
  | .one .bool, .bool v => some (.ok (w.writeBool v))
  | .one .uint8, .uint8 v => some (.ok (w.writeUint8 v))
  | .one .int8, .int8 v => some (.ok (w.writeInt8 v))
  | .one .uint16, .uint16 v => some (.ok (w.writeUint16 v))
  | .one .int16, .int16 v => some (.ok (w.writeInt16 v))
  | .one .uint32, .uint32 v => some (.ok (w.writeUint32 v))
  | .one .int32, .int32 v => some (.ok (w.writeInt32 v))
  | .one .uint64, .uint64 v => some (.ok (w.writeUint64 v))
  | .one .int64, .int64 v => some (.ok (w.writeInt64 v))
  | .one .uintPacked, .uintPacked v => (w.writeUintPacked v).map .ok
  | .one .ipv6, .ipv6 v => some (.ok (w.writeIpv6 v))
  | .one .eui64, .eui64 v => some (.ok (w.writeEui64 v))
  | .one .eui48, .eui48 v => some (.ok (w.writeEui48 v))
  | .one .data, .data v => some (.ok (w.writeBytes v))
  | .one .dataWithLen, .data v => some (.ok (w.writeDataWithLen v))
  | .one .utf8, .utf8 v => some (.ok (w.writeUtf8 v))
  | .one type, _ => some (.error (.unknownToken type.letter))
  | .struct _, .data v => some (.ok (w.writeDataWithLen v))
  | .struct _, _ => some (.error (.unknownToken 't'))
  | .array _, .data v => some (.ok (w.writeBytes v))
  | .array _, _ => some (.error (.unknownToken 'A'))

/-- The loop of `encode`. -/
def encodeAll : PackWriter → List (PackFormatToken × PackValue) →
    Option (Except PackFormatError PackWriter)
  | w, [] => some (.ok w)
  | w, (tok, val) :: rest =>
    match encodeToken w tok val with
    | some (.ok w) => encodeAll w rest
    | stop => stop

def PackFormat.encode (fmt : PackFormat) (values : List PackValue) :
    Option (Except PackFormatError (List UInt8)) :=
  if values.length ≠ fmt.tokens.length then some (.error (.unknownToken '?'))
  else (encodeAll .new (fmt.tokens.zip values)).map (·.map PackWriter.intoBytes)

/-- A read and its `?`: the value with the reader behind it, or the error. -/
def decoded {α : Type} (mk : α → PackValue) (read : Except SpinelError α × PackReader) :
    Except PackFormatError (PackValue × PackReader) :=
  match read with
  | (.ok v, r) => .ok (mk v, r)
  | (.error e, _) => .error (.ofSpinelError e)

def decodeToken (r : PackReader) :
    PackFormatToken → Except PackFormatError (PackValue × PackReader)
  | .one .bool => decoded .bool r.readBool
  | .one .uint8 => decoded .uint8 r.readUint8
  | .one .int8 => decoded .int8 r.readInt8
  | .one .uint16 => decoded .uint16 r.readUint16
  | .one .int16 => decoded .int16 r.readInt16
  | .one .uint32 => decoded .uint32 r.readUint32
  | .one .int32 => decoded .int32 r.readInt32
  | .one .uint64 => decoded .uint64 r.readUint64
  | .one .int64 => decoded .int64 r.readInt64
  | .one .uintPacked => decoded .uintPacked r.readUintPacked
  | .one .ipv6 => decoded .ipv6 r.readIpv6
  | .one .eui64 => decoded .eui64 r.readEui64
  | .one .eui48 => decoded .eui48 r.readEui48
  | .one .data => decoded .data (r.readBytes r.remaining)
  | .one .dataWithLen => decoded .data r.readDataWithLen
  | .one .utf8 => decoded .utf8 r.readUtf8
  | .struct _ => decoded .data r.readStruct
  | .array _ => decoded .data (r.readBytes r.remaining)

/-- The loop of `decode`. -/
def decodeAll : PackReader → List PackFormatToken → Except PackFormatError (List PackValue)
  | _, [] => .ok []
  | r, tok :: rest =>
    match decodeToken r tok with
    | .error e => .error e
    | .ok (val, r) => (decodeAll r rest).map (val :: ·)

def PackFormat.decode (fmt : PackFormat) (data : List UInt8) : Except PackFormatError (List PackValue) :=
  decodeAll (.new data) fmt.tokens

/-! ## 3. One token -/

/-- The token takes all that is left. -/
def PackFormatToken.TakesRest : PackFormatToken → Prop
  | .one .data => True
  | .array _ => True
  | _ => False

/-- The value belongs to the token and fits its encoding. -/
inductive Matches : PackFormatToken → PackValue → Prop
  | bool (v : Bool) : Matches (.one .bool) (.bool v)
  | uint8 (v : UInt8) : Matches (.one .uint8) (.uint8 v)
  | int8 (v : Int8) : Matches (.one .int8) (.int8 v)
  | uint16 (v : UInt16) : Matches (.one .uint16) (.uint16 v)
  | int16 (v : Int16) : Matches (.one .int16) (.int16 v)
  | uint32 (v : UInt32) : Matches (.one .uint32) (.uint32 v)
  | int32 (v : Int32) : Matches (.one .int32) (.int32 v)
  | uint64 (v : UInt64) : Matches (.one .uint64) (.uint64 v)
  | int64 (v : Int64) : Matches (.one .int64) (.int64 v)
  | uintPacked (v : UInt32) (h : v ≤ spinelMaxUintPacked) : Matches (.one .uintPacked) (.uintPacked v)
  | ipv6 (v : { octets : List UInt8 // octets.length = 16 }) : Matches (.one .ipv6) (.ipv6 v)
  | eui64 (v : { octets : List UInt8 // octets.length = 8 }) : Matches (.one .eui64) (.eui64 v)
  | eui48 (v : { octets : List UInt8 // octets.length = 6 }) : Matches (.one .eui48) (.eui48 v)
  | data (v : List UInt8) : Matches (.one .data) (.data v)
  | dataWithLen (v : List UInt8) (h : v.length ≤ 65535) : Matches (.one .dataWithLen) (.data v)
  | utf8 (v : String) (h : '\x00' ∉ v.toList) : Matches (.one .utf8) (.utf8 v)
  | struct (inner : List PackFormatToken) (v : List UInt8) (h : v.length ≤ 65535) :
      Matches (.struct inner) (.data v)
  | array (inner : List PackFormatToken) (v : List UInt8) : Matches (.array inner) (.data v)

/-- The token writes the value as `bytes`, and reads it back from them. -/
structure Codes (tok : PackFormatToken) (val : PackValue) (bytes : List UInt8) : Prop where
  write : ∀ w : PackWriter, encodeToken w tok val = some (.ok ⟨w.buf ++ bytes⟩)
  read : ∀ (r : PackReader) (post : List UInt8), (tok.TakesRest → post = []) →
    r.At (bytes ++ post) → ∃ r', decodeToken r tok = .ok (val, r') ∧ r'.At post

variable {α : Type} {v post : List UInt8} {r : PackReader} {tok : PackFormatToken} {val : PackValue}
  {tokens : List PackFormatToken} {values : List PackValue}

theorem decoded_reads (mk : α → PackValue) {read : Except SpinelError α × PackReader}
    {v : α} (h : Reads read (some (v, post))) :
    ∃ r', decoded mk read = .ok (mk v, r') ∧ r'.At post := by
  obtain ⟨r', hread, hat⟩ := h
  rw [hread]
  exact ⟨r', rfl, hat⟩

theorem reads_structEntry (hv : v.length ≤ 65535)
    (h : r.At (structEntry v ++ post)) : Reads r.readDataWithLen (some (v, post)) := by
  have hreads := reads_dataWithLen h
  rw [unpackDataWlen_structEntry (Nat.lt_succ_of_le hv)] at hreads
  exact hreads

theorem writeDataWithLen_eq (w : PackWriter) (hv : v.length ≤ 65535) :
    w.writeDataWithLen v = ⟨w.buf ++ structEntry v⟩ := by
  have hlen : (UInt16.ofNat v.length).toNat = v.length := UInt16.toNat_ofNat_of_lt' (Nat.lt_succ_of_le hv)
  rw [PackWriter.writeDataWithLen, PackWriter.writeUint16, PackWriter.writeBytes, hlen, structEntry,
    append_assoc]

theorem reads_rest (h : r.At (v ++ [])) : Reads (r.readBytes r.remaining) (some (v, [])) := by
  have hreads := reads_bytes r.remaining h
  rw [h.remaining, append_nil] at hreads
  rw [h.remaining, append_nil]
  have hall := unpackBytes_append (rfl : v.length = v.length) []
  rw [append_nil] at hall
  rw [hall] at hreads
  exact hreads

theorem codes_field (bytes : List UInt8) {mk : α → PackValue}
    {v : α} {read : PackReader → Except SpinelError α × PackReader}
    (hwrite : ∀ w : PackWriter, encodeToken w tok (mk v) = some (.ok ⟨w.buf ++ bytes⟩))
    (hdecode : ∀ r, decodeToken r tok = decoded mk (read r))
    (hread : ∀ r post, r.At (bytes ++ post) → Reads (read r) (some (v, post))) :
    ∃ bytes, Codes tok (mk v) bytes := by
  refine ⟨bytes, hwrite, fun r post _ hat => ?_⟩
  rw [hdecode]
  exact decoded_reads mk (hread r post hat)

theorem codes_rest (htakes : tok.TakesRest)
    (hwrite : ∀ w : PackWriter, encodeToken w tok (.data v) = some (.ok ⟨w.buf ++ v⟩))
    (hdecode : ∀ r, decodeToken r tok = decoded .data (r.readBytes r.remaining)) :
    ∃ bytes, Codes tok (.data v) bytes := by
  refine ⟨v, hwrite, fun r post hpost hat => ?_⟩
  obtain rfl := hpost htakes
  rw [hdecode]
  exact decoded_reads .data (reads_rest hat)

section Integers

variable {r : PackReader} {post : List UInt8}

theorem reads_leUint16 (v : UInt16) (h : r.At (leBytes 2 v.toNat ++ post)) :
    Reads r.readUint16 (some (v, post)) := by
  rw [← unpackUint16_leBytes]
  exact reads_uint16 h

theorem reads_leUint32 (v : UInt32) (h : r.At (leBytes 4 v.toNat ++ post)) :
    Reads r.readUint32 (some (v, post)) := by
  rw [← unpackUint32_leBytes]
  exact reads_uint32 h

theorem reads_leUint64 (v : UInt64) (h : r.At (leBytes 8 v.toNat ++ post)) :
    Reads r.readUint64 (some (v, post)) := by
  rw [← unpackUint64_leBytes]
  exact reads_uint64 h

end Integers

/-- **Every token reads back what it writes.** -/
theorem exists_codes (h : Matches tok val) : ∃ bytes, Codes tok val bytes := by
  cases h with
  | bool v =>
    refine codes_field _ (fun _ => rfl) (fun _ => rfl) fun r post hat => ?_
    have hreads := (reads_uint8 hat).map (fun b : UInt8 => decide (b ≠ 0))
    cases v <;> exact hreads
  | uint8 v =>
    exact codes_field [v] (fun _ => rfl) (fun _ => rfl) fun r post hat => reads_uint8 hat
  | int8 v =>
    refine codes_field [v.toUInt8] (fun _ => rfl) (fun _ => rfl) fun r post hat => ?_
    exact (reads_uint8 hat).map UInt8.toInt8
  | uint16 v =>
    exact codes_field _ (fun _ => rfl) (fun _ => rfl) fun r post hat => reads_leUint16 v hat
  | int16 v =>
    refine codes_field _ (fun _ => rfl) (fun _ => rfl) fun r post hat => ?_
    exact (reads_leUint16 v.toUInt16 hat).map UInt16.toInt16
  | uint32 v =>
    exact codes_field _ (fun _ => rfl) (fun _ => rfl) fun r post hat => reads_leUint32 v hat
  | int32 v =>
    refine codes_field _ (fun _ => rfl) (fun _ => rfl) fun r post hat => ?_
    exact (reads_leUint32 v.toUInt32 hat).map UInt32.toInt32
  | uint64 v =>
    exact codes_field _ (fun _ => rfl) (fun _ => rfl) fun r post hat => reads_leUint64 v hat
  | int64 v =>
    refine codes_field _ (fun _ => rfl) (fun _ => rfl) fun r post hat => ?_
    exact (reads_leUint64 v.toUInt64 hat).map UInt64.toInt64
  | uintPacked v hv =>
    have hwrite (w : PackWriter) : encodeToken w (.one .uintPacked) (.uintPacked v) =
        some (.ok ⟨w.buf ++ PackWriter.uintPackedBytes v⟩) := by
      rw [encodeToken, PackWriter.writeUintPacked, if_pos hv]
      rfl
    refine codes_field _ hwrite (fun _ => rfl) fun r post hat => ?_
    have hreads := reads_uintPacked hat
    rw [unpackUintPacked_append hv] at hreads
    exact hreads
  | ipv6 v =>
    exact codes_field _ (fun _ => rfl) (fun _ => rfl) fun r post hat => ⟨_, readIpv6_append v hat⟩
  | eui64 v =>
    exact codes_field _ (fun _ => rfl) (fun _ => rfl) fun r post hat => ⟨_, readOctets_append v hat⟩
  | eui48 v =>
    exact codes_field _ (fun _ => rfl) (fun _ => rfl) fun r post hat => ⟨_, readOctets_append v hat⟩
  | data v => exact codes_rest trivial (fun _ => rfl) fun _ => rfl
  | dataWithLen v hv =>
    refine codes_field _ (fun w => ?_) (fun _ => rfl) fun r post hat => reads_structEntry hv hat
    rw [encodeToken, writeDataWithLen_eq w hv]
  | utf8 v hv =>
    have hwrite (w : PackWriter) : encodeToken w (.one .utf8) (.utf8 v) =
        some (.ok ⟨w.buf ++ (asBytes v ++ [0])⟩) := by
      rw [encodeToken, PackWriter.writeUtf8, append_assoc]
    refine codes_field _ hwrite (fun _ => rfl) fun r post hat => ?_
    have hreads := reads_utf8 hat
    rw [append_assoc, singleton_append, unpackUtf8_append (zero_not_mem_asBytes hv)] at hreads
    exact hreads
  | struct inner v hv =>
    refine codes_field _ (fun w => ?_) (fun _ => rfl) fun r post hat => reads_structEntry hv hat
    rw [encodeToken, writeDataWithLen_eq w hv]
  | array inner v => exact codes_rest trivial (fun _ => rfl) fun _ => rfl

/-! ## 4. Formats -/

/-- The same for several tokens, with nothing behind them. -/
structure CodesAll (tokens : List PackFormatToken) (values : List PackValue) (bytes : List UInt8) :
    Prop where
  write : ∀ w : PackWriter, encodeAll w (tokens.zip values) = some (.ok ⟨w.buf ++ bytes⟩)
  read : ∀ r : PackReader, r.At bytes → decodeAll r tokens = .ok values

theorem codesAll_nil : CodesAll [] [] [] where
  write w := by
    rw [append_nil]
    rfl
  read _ _ := rfl

/-- One token more in front; if it takes all that is left, there is nothing left for the others. -/
theorem Codes.cons {bytes more : List UInt8} (h : Codes tok val bytes)
    (hmore : CodesAll tokens values more) (hrest : tok.TakesRest → more = []) :
    CodesAll (tok :: tokens) (val :: values) (bytes ++ more) where
  write w := by
    rw [zip_cons_cons, encodeAll, h.write]
    show encodeAll ⟨w.buf ++ bytes⟩ (tokens.zip values) = _
    rw [hmore.write, append_assoc]
  read r hat := by
    obtain ⟨r', hread, hat'⟩ := h.read r more hrest hat
    rw [decodeAll, hread]
    simp only [hmore.read r' hat', Except.map]

/-- **Several tokens**, the last of which may take the rest. -/
theorem exists_codesAll (hmatch : List.Forall₂ Matches tokens values)
    (hlast : ∀ tok ∈ tokens.dropLast, ¬ tok.TakesRest) : ∃ bytes, CodesAll tokens values bytes := by
  induction hmatch with
  | nil => exact ⟨[], codesAll_nil⟩
  | cons hfirst hrest ih =>
    obtain ⟨bytes, hcodes⟩ := exists_codes hfirst
    cases hrest with
    | nil => exact ⟨_, hcodes.cons codesAll_nil fun _ => rfl⟩
    | cons hsecond hrest =>
      obtain ⟨more, hmore⟩ := ih fun tok htok => hlast tok (mem_cons_of_mem _ htok)
      exact ⟨_, hcodes.cons hmore fun htakes => absurd htakes (hlast _ mem_cons_self)⟩

/-- **The round trip of a format**, no token of which but the last takes all that is left. -/
theorem decode_encode_format (fmt : PackFormat) (values : List PackValue)
    (hlast : ∀ tok ∈ fmt.tokens.dropLast, ¬ tok.TakesRest)
    (hmatch : List.Forall₂ Matches fmt.tokens values) :
    ∃ bytes, fmt.encode values = some (.ok bytes) ∧ fmt.decode bytes = .ok values := by
  obtain ⟨bytes, hcodes⟩ := exists_codesAll hmatch hlast
  refine ⟨bytes, ?_, hcodes.read _ (at_new bytes)⟩
  have hlen : ¬ values.length ≠ fmt.tokens.length := not_not_intro hmatch.length_eq.symm
  rw [PackFormat.encode, if_neg hlen, hcodes.write]
  rfl

/-- A packed integer, a text, a struct and raw data at the end. -/
theorem decode_encode_format_example :
    ∃ bytes, PackFormat.encode ⟨[.one .uintPacked, .one .utf8, .struct [.one .uint8], .one .data]⟩
        [.uintPacked 0x1FFFFF, .utf8 "mesh", .data [0x07], .data [0x00, 0x7E]] = some (.ok bytes) ∧
      PackFormat.decode ⟨[.one .uintPacked, .one .utf8, .struct [.one .uint8], .one .data]⟩ bytes =
        .ok [.uintPacked 0x1FFFFF, .utf8 "mesh", .data [0x07], .data [0x00, 0x7E]] := by
  refine decode_encode_format ⟨[.one .uintPacked, .one .utf8, .struct [.one .uint8], .one .data]⟩
    _ ?_ ?_
  · simp [PackFormatToken.TakesRest]
  · exact .cons (.uintPacked _ (by decide)) (.cons (.utf8 _ (by decide))
      (.cons (.struct _ _ (by decide)) (.cons (.data _) .nil)))

/-! ## 5. Values beyond the limits of the wire -/

/-- The value is of the kind that the token takes. -/
def SameKind : PackFormatToken → PackValue → Prop
  | .one .bool, .bool _ => True
  | .one .uint8, .uint8 _ => True
  | .one .int8, .int8 _ => True
  | .one .uint16, .uint16 _ => True
  | .one .int16, .int16 _ => True
  | .one .uint32, .uint32 _ => True
  | .one .int32, .int32 _ => True
  | .one .uint64, .uint64 _ => True
  | .one .int64, .int64 _ => True
  | .one .uintPacked, .uintPacked _ => True
  | .one .ipv6, .ipv6 _ => True
  | .one .eui64, .eui64 _ => True
  | .one .eui48, .eui48 _ => True
  | .one .data, .data _ => True
  | .one .dataWithLen, .data _ => True
  | .one .utf8, .utf8 _ => True
  | .struct _, .data _ => True
  | .array _, .data _ => True
  | _, _ => False

/-- A packed integer above 21 bits, data behind a length of more than 16, a string that its terminator cuts
    off. -/
def Unrepresentable : PackFormatToken → PackValue → Prop
  | .one .uintPacked, .uintPacked v => v > spinelMaxUintPacked
  | .one .dataWithLen, .data v => v.length > 65535
  | .struct _, .data v => v.length > 65535
  | .one .utf8, .utf8 v => '\x00' ∈ v.toList
  | _, _ => False

/-- A value of the right kind is written, whatever it is, unless the packed integer panics. -/
theorem encodeToken_sameKind (h : SameKind tok val) (w : PackWriter) :
    (encodeToken w tok val = none ∧ Unrepresentable tok val) ∨
      ∃ w', encodeToken w tok val = some (.ok w') := by
  unfold SameKind at h
  split at h
  case h_10 v =>
    by_cases hv : v ≤ spinelMaxUintPacked
    · right
      rw [encodeToken, PackWriter.writeUintPacked, if_pos hv]
      exact ⟨_, rfl⟩
    · left
      rw [encodeToken, PackWriter.writeUintPacked, if_neg hv]
      exact ⟨rfl, UInt32.not_le.mp hv⟩
  case h_19 => exact h.elim
  all_goals exact .inr ⟨_, rfl⟩

/-- Values of the right kinds: a panic for one beyond the limits, or bytes; never an error. -/
theorem encodeAll_sameKind (h : List.Forall₂ SameKind tokens values) (w : PackWriter) :
    (encodeAll w (tokens.zip values) = none ∧ ∃ x ∈ tokens.zip values, Unrepresentable x.1 x.2) ∨
      ∃ w', encodeAll w (tokens.zip values) = some (.ok w') := by
  induction h generalizing w with
  | nil => exact .inr ⟨w, rfl⟩
  | @cons tok val tokens values hfirst _ ih =>
    rw [zip_cons_cons, encodeAll]
    obtain ⟨hnone, hun⟩ | ⟨w', hsome⟩ := encodeToken_sameKind hfirst w
    · rw [hnone]
      exact .inl ⟨rfl, (tok, val), mem_cons_self, hun⟩
    · rw [hsome]
      obtain ⟨hnone, x, hx, hun⟩ | hbytes := ih w'
      · exact .inl ⟨hnone, x, mem_cons_of_mem _ hx, hun⟩
      · exact .inr hbytes

/-- **The limits of the wire.** `encode` does not panic and reports every value that cannot be represented, if
    and only if all of them can be. -/
theorem encode_reports_iff (fmt : PackFormat) (values : List PackValue)
    (hkind : List.Forall₂ SameKind fmt.tokens values) : (fmt.encode values ≠ none ∧
        ((∃ x ∈ fmt.tokens.zip values, Unrepresentable x.1 x.2) →
          ∃ e, fmt.encode values = some (.error e))) ↔
      ∀ x ∈ fmt.tokens.zip values, ¬ Unrepresentable x.1 x.2 := by
  have hlen : ¬ values.length ≠ fmt.tokens.length := not_not_intro hkind.length_eq.symm
  rw [PackFormat.encode, if_neg hlen]
  obtain ⟨hnone, x, hx, hun⟩ | ⟨w, hw⟩ := encodeAll_sameKind hkind .new
  · rw [hnone]
    constructor
    · intro ⟨hne, _⟩
      exact (hne rfl).elim
    · intro hall
      exact (hall x hx hun).elim
  · rw [hw]
    constructor
    · intro ⟨_, hreports⟩ x hx hun
      obtain ⟨e, he⟩ := hreports ⟨x, hx, hun⟩
      cases he
    · intro hall
      refine ⟨Option.some_ne_none _, fun ⟨x, hx, hun⟩ => ?_⟩
      exact (hall x hx hun).elim

/-- The largest packed integer and a text are within the limits. -/
theorem encode_reports_within :
    PackFormat.encode ⟨[.one .uintPacked, .one .utf8]⟩ [.uintPacked 0x1FFFFF, .utf8 "mesh"] ≠ none :=
  ((encode_reports_iff ⟨[.one .uintPacked, .one .utf8]⟩ [.uintPacked 0x1FFFFF, .utf8 "mesh"]
    (.cons trivial (.cons trivial .nil))).mpr (by simp [Unrepresentable, spinelMaxUintPacked])).1

/-- **Beyond the limits**: 22 bits panic; a text with a zero byte and 65536 bytes are written, their length as
    zero. -/
theorem encode_beyond_limits : PackFormat.encode ⟨[.one .uintPacked]⟩ [.uintPacked 0x200000] = none ∧
      PackFormat.encode ⟨[.one .utf8]⟩ [.utf8 "a\x00b"] = some (.ok [0x61, 0, 0x62, 0]) ∧
      PackFormat.encode ⟨[.one .dataWithLen]⟩ [.data (List.replicate 65536 7)] =
        some (.ok (0 :: 0 :: List.replicate 65536 7)) := by
  refine ⟨by decide, by decide, ?_⟩
  have hlen : UInt16.ofNat (replicate 65536 (7 : UInt8)).length = 0 := by
    rw [length_replicate]
    rfl
  simp only [PackFormat.encode, encodeAll, encodeToken, PackWriter.writeDataWithLen, hlen, zip_cons_cons]
  rfl

end DcuDaemon.Spinel
