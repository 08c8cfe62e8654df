import Mathlib.Tactic.IntervalCases
import Moonlight.Gamestream.Pair
import Moonlight.Lib.Memory

/-! `bytes_to_hex` and the decoding loop of `gs_pair` with the `int` counters they have. Each one
undoes the other as long as no counter overflows. -/
namespace Moonlight

open Lib.Machine Lib.Memory Lib.Stdio

/-- `%02x` of one byte. -/
def hexPair (b : UInt8) : List Char :=
  [Nat.digitChar (b.toNat / 16), Nat.digitChar (b.toNat % 16)]

/-- The loop of `bytes_to_hex` from `in[i]` on. -/
def hexLoop : List UInt8 → Int → Bytes → Option Bytes
  | [], _, out => some out
  | b :: rest, i, out => do
    let offset ← intExpr (i * 2)
    let out ← writeBytes out offset.toNat (terminated (hexPair b))
    let i ← intExpr (i + 1)
    hexLoop rest i out

/-- `bytes_to_hex` into an array; `none` is a write past its end or a counter that overflows. -/
def bytesToHexInto (bytes : List UInt8) (out : Bytes) : Option Bytes := do
  let out ← hexLoop bytes 0 out
  writeBytes out (bytes.length * 2) [some '\x00']

/-- The decoding loop from `result[count]` on, over the rest of the text. -/
def decodeLoop : List Char → Int → List UInt8 → Option (List UInt8)
  | [], _, buffer => some buffer
  | [c], count, buffer => do
    let buffer ← scanInto buffer (count / 2).toNat [c]
    let _ ← intExpr (count + 2)
    return buffer
  | c :: d :: rest, count, buffer => do
    let buffer ← scanInto buffer (count / 2).toNat (c :: d :: rest)
    let count ← intExpr (count + 2)
    decodeLoop rest count buffer

/-- Hexadecimal digits in pairs, upper or lower case. -/
structure HexText (text : List Char) : Prop where
  even : text.length % 2 = 0
  digits : ∀ c ∈ text, (hexDigit c).isSome

/-- Decoding what `bytes_to_hex` writes for the bytes puts them into the front of any array that
has room for them, and nothing else. -/
def DecodesBack (bytes : List UInt8) : Prop :=
  ∀ (out : Bytes) (buffer : List UInt8), 2 * bytes.length + 1 ≤ out.length →
    bytes.length ≤ buffer.length →
    ∃ out' text, bytesToHexInto bytes out = some out' ∧ readString out' = some text ∧
      decodeLoop text 0 buffer = some (bytes ++ buffer.drop bytes.length)

/-- Decoding the text gives bytes for which `bytes_to_hex` writes it in lower case. -/
def EncodesBack (text : List Char) : Prop :=
  ∀ (buffer : List UInt8) (out : Bytes), text.length / 2 ≤ buffer.length →
    text.length + 1 ≤ out.length →
    ∃ bytes out', decodeLoop text 0 buffer = some (bytes ++ buffer.drop bytes.length) ∧
      2 * bytes.length = text.length ∧ bytesToHexInto bytes out = some out' ∧
      readString out' = some (text.map Char.toLower)

variable {bytes : List UInt8} {text rest : List Char} {front behind : Bytes} {c d : Char}
  {x y i : Nat} {b : UInt8} {count : Int} {buffer kept : List UInt8}

theorem hexDigit_digitChar (h : x < 16) : hexDigit (Nat.digitChar x) = some x := by
  interval_cases x <;> decide

/-- A digit is read for the value that is written as its lower case. -/
theorem digitChar_of_hexDigit (h : hexDigit c = some x) :
    x < 16 ∧ Nat.digitChar x = c.toLower := by
  have hof : Char.ofNat c.toNat = c := Char.ofNat_toNat c
  unfold hexDigit at h
  split at h
  · next hc =>
    have hlo : 48 ≤ c.toNat := hc.1
    have hhi : c.toNat ≤ 57 := hc.2
    obtain rfl := Option.some.inj h
    rw [← hof]
    generalize c.toNat = n at hlo hhi
    interval_cases n <;> decide
  · split at h
    · next hc =>
      have hlo : 97 ≤ c.toNat := hc.1
      have hhi : c.toNat ≤ 102 := hc.2
      obtain rfl := Option.some.inj h
      rw [← hof]
      generalize c.toNat = n at hlo hhi
      interval_cases n <;> decide
    · split at h
      · next hc =>
        have hlo : 65 ≤ c.toNat := hc.1
        have hhi : c.toNat ≤ 70 := hc.2
        obtain rfl := Option.some.inj h
        rw [← hof]
        generalize c.toNat = n at hlo hhi
        interval_cases n <;> decide
      · cases h

theorem not_space_of_hexDigit (h : hexDigit c = some x) : isspace c = false := by
  by_contra hspace
  have hspace : isspace c = true := by simpa using hspace
  unfold isspace at hspace
  simp only [Bool.or_eq_true, decide_eq_true_eq] at hspace
  rcases hspace with ((((rfl | rfl) | rfl) | rfl) | rfl) | rfl <;> cases h

/-- Two digits are read as one byte, whatever comes behind them. -/
theorem scanHexByte_digits (hc : hexDigit c = some x) (hd : hexDigit d = some y)
    (rest : List Char) : scanHexByte (c :: d :: rest) = some (UInt8.ofNat (16 * x + y)) := by
  unfold scanHexByte
  rw [List.dropWhile_cons_of_neg (by simp [not_space_of_hexDigit hc])]
  simp [hc, hd]

theorem scanHexByte_hexPair (b : UInt8) (rest : List Char) :
    scanHexByte (hexPair b ++ rest) = some b := by
  have hb := b.toNat_lt
  have hhigh := hexDigit_digitChar (x := b.toNat / 16) (by omega)
  have hlow := hexDigit_digitChar (x := b.toNat % 16) (by omega)
  rw [hexPair, List.cons_append, List.cons_append, List.nil_append,
    scanHexByte_digits hhigh hlow]
  have hvalue : 16 * (b.toNat / 16) + b.toNat % 16 = b.toNat := by omega
  rw [hvalue, UInt8.ofNat_toNat]

/-- The byte of two digits is written as these, in lower case. -/
theorem hexPair_digits (hc : hexDigit c = some x) (hd : hexDigit d = some y) :
    hexPair (UInt8.ofNat (16 * x + y)) = [c.toLower, d.toLower] := by
  obtain ⟨hx, hxc⟩ := digitChar_of_hexDigit hc
  obtain ⟨hy, hyd⟩ := digitChar_of_hexDigit hd
  have hsize : UInt8.size = 256 := rfl
  have hbyte : (UInt8.ofNat (16 * x + y)).toNat = 16 * x + y :=
    UInt8.toNat_ofNat_of_lt (by omega)
  rw [hexPair, hbyte, ← hxc, ← hyd]
  have hhigh : (16 * x + y) / 16 = x := by omega
  have hlow : (16 * x + y) % 16 = y := by omega
  rw [hhigh, hlow]

theorem bytesToHex_cons (b : UInt8) (bytes : List UInt8) :
    bytesToHex (b :: bytes) = hexPair b ++ bytesToHex bytes := rfl

@[simp] theorem length_bytesToHex (bytes : List UInt8) :
    (bytesToHex bytes).length = 2 * bytes.length := by
  induction bytes with
  | nil => rfl
  | cons b bytes ih =>
    rw [bytesToHex_cons, List.length_append, ih, List.length_cons]
    simp [hexPair]
    omega

/-- While the counter stays in range, the loop appends the text behind what it wrote before. -/
theorem hexLoop_eq (bytes : List UInt8) (front behind : Bytes) (hfront : front.length = 2 * i)
    (hroom : 2 * bytes.length + 1 ≤ behind.length) (hcount : i + bytes.length ≤ 2 ^ 30) :
    ∃ behind', hexLoop bytes i (front ++ behind) =
        some (front ++ (bytesToHex bytes).map some ++ behind') ∧
      behind'.length = behind.length - 2 * bytes.length := by
  induction bytes generalizing front behind i with
  | nil => exact ⟨behind, by simp [hexLoop, bytesToHex], by simp⟩
  | cons b bytes ih =>
    rw [List.length_cons] at hroom hcount
    have hoffset : intExpr ((i : Int) * 2) = some ((2 * i : Nat) : Int) := by
      rw [intExpr_eq (by omega) (by omega)]
      exact congrArg some (by push_cast; ring)
    have hnext : intExpr ((i : Int) + 1) = some ((i + 1 : Nat) : Int) := by
      rw [intExpr_eq (by omega) (by omega)]
      rfl
    have hpair : (hexPair b).length = 2 := rfl
    have hwrite := writeBytes_behind (i := 2 * i) front behind (terminated (hexPair b)) hfront
      (by simp [terminated, hpair]; omega)
    -- the NUL is the first byte behind the text, where the next turn starts
    have hsplit : front ++ terminated (hexPair b) ++
        behind.drop (terminated (hexPair b)).length =
        (front ++ (hexPair b).map some) ++ (some '\x00' :: behind.drop 3) := by
      simp [terminated, hpair]
    obtain ⟨behind', hrun, hlen⟩ := ih (i := i + 1) (front ++ (hexPair b).map some)
      (some '\x00' :: behind.drop 3) (by simp [hpair, hfront]; omega)
      (by simp; omega) (by omega)
    refine ⟨behind', ?_, ?_⟩
    · rw [hexLoop, hoffset, Option.bind_eq_bind, Option.bind_some, Int.toNat_natCast, hwrite,
        Option.bind_eq_bind, Option.bind_some, hnext, Option.bind_some, hsplit, hrun,
        bytesToHex_cons]
      simp
    · rw [hlen]
      simp
      omega

/-- With more bytes than the counter can count in twos, the loop goes wrong. -/
theorem hexLoop_overflow (bytes : List UInt8) (out : Bytes) (hi : i ≤ 2 ^ 30)
    (hcount : 2 ^ 30 < i + bytes.length) : hexLoop bytes i out = none := by
  induction bytes generalizing out i with
  | nil =>
    rw [List.length_nil] at hcount
    omega
  | cons b bytes ih =>
    rw [List.length_cons] at hcount
    rw [hexLoop]
    by_cases hlast : i = 2 ^ 30
    · have hover : intExpr ((i : Int) * 2) = none := by
        subst hlast
        decide
      rw [hover]
      rfl
    · have hnext : intExpr ((i : Int) + 1) = some ((i + 1 : Nat) : Int) := by
        rw [intExpr_eq (by omega) (by omega)]
        rfl
      cases intExpr ((i : Int) * 2) with
      | none => rfl
      | some offset =>
        rw [Option.bind_eq_bind, Option.bind_some]
        cases writeBytes out offset.toNat (terminated (hexPair b)) with
        | none => rfl
        | some out' =>
          rw [Option.bind_eq_bind, Option.bind_some, hnext, Option.bind_some]
          exact ih out' (by omega) (by omega)

/-- `bytes_to_hex` leaves the text of the bytes as a string. -/
theorem bytesToHexInto_eq (bytes : List UInt8) (out : Bytes)
    (hroom : 2 * bytes.length + 1 ≤ out.length) (hcount : bytes.length ≤ 2 ^ 30) :
    ∃ out', bytesToHexInto bytes out = some out' ∧
      ∃ behind, out' = terminated (bytesToHex bytes) ++ behind := by
  obtain ⟨behind, hrun, hlen⟩ := hexLoop_eq (i := 0) bytes [] out rfl (by omega) (by omega)
  have hwrite := writeBytes_behind (i := bytes.length * 2) ((bytesToHex bytes).map some) behind
    [some '\x00'] (by simp; omega) (by simp; omega)
  refine ⟨_, ?_, behind.drop 1, rfl⟩
  rw [bytesToHexInto]
  rw [List.nil_append, List.nil_append, Int.natCast_zero] at hrun
  rw [hrun, Option.bind_eq_bind, Option.bind_some, hwrite]
  simp [terminated]

theorem bytesToHexInto_overflow (bytes : List UInt8) (out : Bytes)
    (hcount : 2 ^ 30 < bytes.length) : bytesToHexInto bytes out = none := by
  have hrun := hexLoop_overflow (i := 0) bytes out (by omega) (by omega)
  rw [Int.natCast_zero] at hrun
  rw [bytesToHexInto, hrun]
  rfl

/-- While the counter stays in range, the loop is the decoding of the text. -/
theorem decodeLoop_eq (text : List Char) (i : Nat) (buffer : List UInt8)
    (hcount : 2 * i + text.length ≤ 2147483647) (heven : text.length % 2 = 0) :
    decodeLoop text (2 * i : Nat) buffer = decodeHex text i buffer := by
  induction text, i, buffer using decodeHex.induct with
  | case1 i buffer => rfl
  | case2 c i buffer => simp at heven
  | case3 c d rest i buffer ih =>
    simp only [List.length_cons] at hcount heven
    have hplace : (((2 * i : Nat) : Int) / 2).toNat = i := by omega
    have hnext : intExpr (((2 * i : Nat) : Int) + 2) = some ((2 * (i + 1) : Nat) : Int) := by
      rw [intExpr_eq (by omega) (by omega)]
      exact congrArg some (by omega)
    rw [decodeLoop, decodeHex, hplace]
    cases scanInto buffer i (c :: d :: rest) with
    | none => simp only [Option.bind_eq_bind, Option.bind_none]
    | some out =>
      rw [Option.bind_eq_bind, Option.bind_some, hnext, Option.bind_some]
      exact ih out (by omega) (by omega)

/-- On a longer text, the loop goes wrong. -/
theorem decodeLoop_overflow (text : List Char) (i : Nat) (buffer : List UInt8)
    (hi : 2 * i ≤ 2147483647) (hcount : 2147483647 < 2 * i + text.length)
    (heven : text.length % 2 = 0) : decodeLoop text (2 * i : Nat) buffer = none := by
  induction text, i, buffer using decodeHex.induct with
  | case1 i buffer => simp at hcount; omega
  | case2 c i buffer => simp at heven
  | case3 c d rest i buffer ih =>
    simp only [List.length_cons] at hcount heven
    rw [decodeLoop]
    cases scanInto buffer (((2 * i : Nat) : Int) / 2).toNat (c :: d :: rest) with
    | none => rfl
    | some out =>
      rw [Option.bind_eq_bind, Option.bind_some]
      by_cases hlast : 2147483647 < 2 * i + 2
      · have hover : intExpr (((2 * i : Nat) : Int) + 2) = none := if_neg (by omega)
        rw [hover]
        rfl
      · have hnext : intExpr (((2 * i : Nat) : Int) + 2) = some ((2 * (i + 1) : Nat) : Int) := by
          rw [intExpr_eq (by omega) (by omega)]
          exact congrArg some (by omega)
        rw [hnext, Option.bind_eq_bind, Option.bind_some]
        exact ih out (by omega) (by omega) (by omega)

theorem scanInto_behind {s : List Char} (room : List UInt8) (hscan : scanHexByte s = some b)
    (hkept : kept.length = i) (hroom : 0 < room.length) :
    scanInto (kept ++ room) i s = some ((kept ++ [b]) ++ room.drop 1) := by
  obtain ⟨first, more, rfl⟩ := List.exists_cons_of_length_pos hroom
  subst hkept
  unfold scanInto storeByte
  rw [hscan]
  simp

/-- Decoding digits puts one byte for each pair into the array, and nothing else. -/
theorem decodeHex_digits (text : List Char) (i : Nat) (kept room : List UInt8)
    (htext : HexText text) (hkept : kept.length = i) (hroom : text.length / 2 ≤ room.length) :
    ∃ bytes, decodeHex text i (kept ++ room) = some (kept ++ bytes ++ room.drop bytes.length) ∧
      2 * bytes.length = text.length ∧ bytesToHex bytes = text.map Char.toLower := by
  induction text, i, room using decodeHex.induct generalizing kept with
  | case1 i room => exact ⟨[], by simp [decodeHex], rfl, rfl⟩
  | case2 c i room => exact absurd htext.even (by simp)
  | case3 c d rest i room ih =>
    obtain ⟨x, hx⟩ := Option.isSome_iff_exists.mp (htext.digits c (by simp))
    obtain ⟨y, hy⟩ := Option.isSome_iff_exists.mp (htext.digits d (by simp))
    have hrest : HexText rest :=
      ⟨by have := htext.even; simp at this; omega, fun e he => htext.digits e (by simp [he])⟩
    simp only [List.length_cons] at hroom
    have hstore := scanInto_behind room (scanHexByte_digits hx hy rest) hkept (by omega)
    obtain ⟨bytes, hrun, hlen, hhex⟩ := ih (room.drop 1)
      (kept ++ [UInt8.ofNat (16 * x + y)]) hrest (by simp [hkept]) (by simp; omega)
    refine ⟨UInt8.ofNat (16 * x + y) :: bytes, ?_, ?_, ?_⟩
    · rw [decodeHex, hstore, Option.bind_eq_bind, Option.bind_some, hrun]
      simp [Nat.add_comm]
    · simp only [List.length_cons]
      omega
    · rw [bytesToHex_cons, hexPair_digits hx hy, hhex]
      rfl

theorem hexText_bytesToHex (bytes : List UInt8) : HexText (bytesToHex bytes) := by
  constructor
  · rw [length_bytesToHex]
    omega
  · intro c hc
    obtain ⟨b, _, hc⟩ := List.mem_flatMap.mp hc
    have hb := b.toNat_lt
    rcases List.mem_pair.mp hc with rfl | rfl
    · rw [hexDigit_digitChar (by omega)]
      rfl
    · rw [hexDigit_digitChar (by omega)]
      rfl

theorem HexText.nul_not_mem (h : HexText text) : '\x00' ∉ text := fun hmem =>
  absurd (h.digits _ hmem) (by decide)

/-- Decoding what `bytes_to_hex` writes puts the bytes back, and nothing else. -/
theorem decodeHex_bytesToHex (bytes : List UInt8) (i : Nat) (kept room : List UInt8)
    (hkept : kept.length = i) (hroom : bytes.length ≤ room.length) :
    decodeHex (bytesToHex bytes) i (kept ++ room) =
      some (kept ++ bytes ++ room.drop bytes.length) := by
  induction bytes generalizing i kept room with
  | nil => simp [bytesToHex, decodeHex]
  | cons b bytes ih =>
    rw [List.length_cons] at hroom
    have hscan := scanHexByte_hexPair b (bytesToHex bytes)
    have hstore := scanInto_behind room hscan hkept (by omega)
    have hrest := ih (i + 1) (kept ++ [b]) (room.drop 1) (by simp [hkept]) (by simp; omega)
    rw [bytesToHex_cons]
    rw [hexPair, List.cons_append, List.cons_append, List.nil_append] at hstore ⊢
    rw [decodeHex, hstore, Option.bind_eq_bind, Option.bind_some, hrest]
    simp

theorem decodesBack_iff (bytes : List UInt8) : DecodesBack bytes ↔ bytes.length < 2 ^ 30 := by
  have htext := hexText_bytesToHex bytes
  constructor
  · intro h
    by_contra hlong
    obtain ⟨out', text, hwrite, hread, hdecode⟩ := h
      (List.replicate (2 * bytes.length + 1) none) (List.replicate bytes.length 0)
      (by simp) (by simp)
    by_cases hover : 2 ^ 30 < bytes.length
    · rw [bytesToHexInto_overflow bytes _ hover] at hwrite
      cases hwrite
    · obtain ⟨_, hwrite', behind, rfl⟩ := bytesToHexInto_eq bytes
        (List.replicate (2 * bytes.length + 1) none) (by simp) (by omega)
      rw [hwrite'] at hwrite
      obtain rfl := Option.some.inj hwrite
      rw [readString_behind _ htext.nul_not_mem] at hread
      obtain rfl := Option.some.inj hread
      have hloop := decodeLoop_overflow (bytesToHex bytes) 0 (List.replicate bytes.length 0)
        (by omega) (by rw [length_bytesToHex]; omega) htext.even
      rw [Nat.mul_zero, Int.natCast_zero, hdecode] at hloop
      cases hloop
  · intro hshort out buffer hout hbuffer
    obtain ⟨_, hwrite, behind, rfl⟩ := bytesToHexInto_eq bytes out hout (by omega)
    refine ⟨_, bytesToHex bytes, hwrite, readString_behind _ htext.nul_not_mem behind, ?_⟩
    have hloop := decodeLoop_eq (bytesToHex bytes) 0 buffer (by rw [length_bytesToHex]; omega)
      htext.even
    rw [Nat.mul_zero, Int.natCast_zero] at hloop
    rw [hloop]
    simpa using decodeHex_bytesToHex bytes 0 [] buffer rfl hbuffer

theorem encodesBack_iff (htext : HexText text) : EncodesBack text ↔ text.length < 2 ^ 31 := by
  have heven := htext.even
  constructor
  · intro h
    by_contra hlong
    obtain ⟨bytes, _, hdecode, _⟩ := h (List.replicate (text.length / 2) 0)
      (List.replicate (text.length + 1) none) (by simp) (by simp)
    have hloop := decodeLoop_overflow text 0 (List.replicate (text.length / 2) 0)
      (by omega) (by omega) heven
    rw [Nat.mul_zero, Int.natCast_zero, hdecode] at hloop
    cases hloop
  · intro hshort buffer out hbuffer hout
    obtain ⟨bytes, hdecode, hlen, hhex⟩ := decodeHex_digits text 0 [] buffer htext rfl hbuffer
    have hloop := decodeLoop_eq text 0 buffer (by omega) heven
    obtain ⟨_, hwrite, behind, rfl⟩ := bytesToHexInto_eq bytes out (by omega) (by omega)
    refine ⟨bytes, _, ?_, hlen, hwrite, ?_⟩
    · rw [Nat.mul_zero, Int.natCast_zero] at hloop
      rw [hloop]
      simpa using hdecode
    · have hnul := (hexText_bytesToHex bytes).nul_not_mem
      rw [readString_behind _ hnul, hhex]

/-- Bytes survive `bytes_to_hex` and the decoding loop, and hexadecimal digits the two in the
other order up to their case, exactly while the counters can count them. -/
theorem hex_round_trips_iff :
    (∀ bytes, DecodesBack bytes ↔ bytes.length < 2 ^ 30) ∧
    ∀ text, HexText text → (EncodesBack text ↔ text.length < 2 ^ 31) :=
  ⟨decodesBack_iff, fun _ htext => encodesBack_iff htext⟩

/-- `deadBEEF` is read as four bytes that are written in lower case. -/
theorem hex_round_trips_iff_beef : EncodesBack "deadBEEF".toList :=
  (hex_round_trips_iff.2 "deadBEEF".toList
    ⟨by decide, List.all_eq_true.mp (by decide)⟩).mpr (by decide)

/-- At 2 ^ 30 + 1 bytes, `i * 2` overflows. -/
theorem too_many_bytes_for_counter : ¬ DecodesBack (List.replicate (2 ^ 30 + 1) 0) := by
  rw [decodesBack_iff, List.length_replicate]
  omega

end Moonlight
