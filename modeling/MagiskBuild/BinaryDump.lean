import MagiskBuild.Text

/-!
`binary_dump`: bytes rendered as a C++ array definition, one `0xHH,` literal per byte and a line
break before every sixteenth. The compressor is a parameter (`dump_bin_header` passes `xz`);
the layout and the reading back of the literals hold for every compressor and every input.
-/
namespace MagiskBuild

def hexDigit (n : Nat) : Char := if n < 10 then Char.ofNat (48 + n) else Char.ofNat (55 + n)

def hexLiteral (c : UInt8) : Str := ['0', 'x', hexDigit (c.toNat / 16), hexDigit (c.toNat % 16), ',']

def dumpBytes (i : Nat) : List UInt8 → Str
  | [] => []
  | c :: cs => (if i % 16 = 0 then ['\n'] else []) ++ hexLiteral c ++ dumpBytes (i + 1) cs

def declLine (varName : Str) : Str := "constexpr unsigned char ".toList ++ varName ++ "[] = \x7b".toList

def closeLine : Str := "\n\x7d;\n".toList

/-- `binary_dump(src, var_name, compressor)`, given the bytes `src.read()` returns. -/
def binaryDump (data : List UInt8) (varName : Str) (compressor : List UInt8 → List UInt8) : Str :=
  declLine varName ++ dumpBytes 0 (compressor data) ++ closeLine

/-- Consecutive chunks of sixteen, the last one possibly shorter. -/
def chunks16 {α : Type} : List α → List (List α)
  | [] => []
  | c :: cs => (c :: cs).take 16 :: chunks16 ((c :: cs).drop 16)
termination_by l => l.length

def chunkLine (chunk : List UInt8) : Str := '\n' :: chunk.flatMap hexLiteral

def hexValue (c : Char) : Option Nat :=
  if '0' ≤ c ∧ c ≤ '9' then some (c.toNat - 48)
  else if 'A' ≤ c ∧ c ≤ 'F' then some (c.toNat - 55) else none

def readArray : Str → Option (List UInt8)
  | ['\n', '\x7d', ';', '\n'] => some []
  | '\n' :: cs => readArray cs
  | '0' :: 'x' :: h :: l :: ',' :: cs => do
    let hi ← hexValue h
    let lo ← hexValue l
    let rest ← readArray cs
    pure (UInt8.ofNat (hi * 16 + lo) :: rest)
  | _ => none

/-- Reads back the array a header defines under `varName`. -/
def readDump (varName : Str) (text : Str) : Option (List UInt8) :=
  if declLine varName <+: text then readArray (text.drop (declLine varName).length) else none

theorem dumpBytes_append (i : Nat) (xs ys : List UInt8) :
    dumpBytes i (xs ++ ys) = dumpBytes i xs ++ dumpBytes (i + xs.length) ys := by
  induction xs generalizing i with
  | nil => simp [dumpBytes]
  | cons c xs ih => simp [dumpBytes, ih, Nat.add_assoc, Nat.add_comm 1]

theorem dumpBytes_inside {i j : Nat} (hi : i % 16 = 0) (xs : List UInt8) (hj : 0 < j)
    (fits : j + xs.length ≤ 16) : dumpBytes (i + j) xs = xs.flatMap hexLiteral := by
  induction xs generalizing j with
  | nil => rfl
  | cons c xs ih =>
    simp only [List.length_cons] at fits
    have inside : (i + j) % 16 ≠ 0 := by omega
    have rest : dumpBytes (i + j + 1) xs = xs.flatMap hexLiteral := ih (j := j + 1) (by omega) (by omega)
    simp [dumpBytes, inside, rest]

theorem dumpBytes_chunk {i : Nat} (hi : i % 16 = 0) {c : UInt8} {cs : List UInt8}
    (fits : cs.length < 16) : dumpBytes i (c :: cs) = chunkLine (c :: cs) := by
  simp [dumpBytes, hi, chunkLine, dumpBytes_inside hi cs (j := 1) (by omega) (by omega)]

theorem dumpBytes_eq_chunks {i : Nat} (hi : i % 16 = 0) (data : List UInt8) :
    dumpBytes i data = (chunks16 data).flatMap chunkLine := by
  induction data using chunks16.induct generalizing i with
  | case1 => simp [dumpBytes, chunks16]
  | case2 c cs ih =>
    have split := dumpBytes_append i ((c :: cs).take 16) ((c :: cs).drop 16)
    rw [List.take_append_drop] at split
    have first : dumpBytes i ((c :: cs).take 16) = chunkLine ((c :: cs).take 16) :=
      dumpBytes_chunk hi (by simp)
    rw [chunks16, List.flatMap_cons, split, first]
    congr 1
    by_cases full : 16 ≤ (c :: cs).length
    · rw [List.length_take_of_le full]
      exact ih (by omega)
    · rw [List.drop_eq_nil_of_le (by omega)]
      simp [dumpBytes, chunks16]

theorem flatten_chunks16 {α : Type} (l : List α) : (chunks16 l).flatten = l := by
  induction l using chunks16.induct with
  | case1 => simp [chunks16]
  | case2 c cs ih => rw [chunks16, List.flatten_cons, ih, List.take_append_drop]

theorem chunks16_sizes {α : Type} (l : List α) : ∀ ch ∈ chunks16 l, 0 < ch.length ∧ ch.length ≤ 16 := by
  induction l using chunks16.induct with
  | case1 => simp [chunks16]
  | case2 c cs ih =>
    rw [chunks16]
    rintro ch (_ | ⟨_, h⟩)
    · simp [List.length_take]
    · exact ih ch h

theorem chunks16_full {α : Type} (l : List α) : ∀ ch ∈ (chunks16 l).dropLast, ch.length = 16 := by
  induction l using chunks16.induct with
  | case1 => simp [chunks16]
  | case2 c cs ih =>
    rw [chunks16]
    by_cases full : 16 < (c :: cs).length
    · have more : chunks16 ((c :: cs).drop 16) ≠ [] := by
        cases h : (c :: cs).drop 16 with
        | nil => simp only [List.drop_eq_nil_iff, List.length_cons] at h full; omega
        | cons d ds => simp [chunks16]
      rw [List.dropLast_cons_of_ne_nil more]
      rintro ch (_ | ⟨_, h⟩)
      · exact List.length_take_of_le full.le
      · exact ih ch h
    · rw [List.drop_eq_nil_of_le (by omega)]
      simp [chunks16]

theorem hexValue_hexDigit : ∀ n < 16, hexValue (hexDigit n) = some n := by decide

theorem hexDigit_upper : ∀ n < 16, hexDigit n ∈ "0123456789ABCDEF".toList := by decide

theorem byte_ofNat_toNat (c : UInt8) : UInt8.ofNat c.toNat = c := by
  apply UInt8.eq_of_val_eq
  simp only [UInt8.val, UInt8.ofNat]
  exact Fin.ext (by simp [Fin.ofNat', UInt8.toNat, Nat.mod_eq_of_lt c.toBitVec.isLt])

theorem readArray_dumpBytes (i : Nat) (data : List UInt8) :
    readArray (dumpBytes i data ++ closeLine) = some data := by
  induction data generalizing i with
  | nil => rfl
  | cons c cs ih =>
    have small : c.toNat < 256 := c.toNat_lt_size
    have hi := hexValue_hexDigit (c.toNat / 16) (by omega)
    have lo := hexValue_hexDigit (c.toNat % 16) (Nat.mod_lt _ (by omega))
    have byte : UInt8.ofNat (c.toNat / 16 * 16 + c.toNat % 16) = c := by
      rw [Nat.mul_comm, Nat.div_add_mod, byte_ofNat_toNat]
    have literal : readArray (hexLiteral c ++ (dumpBytes (i + 1) cs ++ closeLine)) = some (c :: cs) := by
      simp [hexLiteral, readArray, hi, lo, ih, byte]
    by_cases brk : i % 16 = 0
    · simpa [dumpBytes, brk, readArray, hexLiteral] using literal
    · simpa [dumpBytes, brk] using literal

theorem readDump_binaryDump (data : List UInt8) (varName : Str) (compressor : List UInt8 → List UInt8) :
    readDump varName (binaryDump data varName compressor) = some (compressor data) := by
  rw [readDump, binaryDump, List.append_assoc, if_pos (List.prefix_append _ _), List.drop_left]
  exact readArray_dumpBytes 0 (compressor data)

theorem hexLiteral_form (c : UInt8) : ∃ hi lo, hexLiteral c = ['0', 'x', hi, lo, ','] ∧
    hi ∈ "0123456789ABCDEF".toList ∧ lo ∈ "0123456789ABCDEF".toList ∧
    hexValue hi = some (c.toNat / 16) ∧ hexValue lo = some (c.toNat % 16) := by
  have small : c.toNat < 256 := c.toNat_lt_size
  exact ⟨_, _, rfl, hexDigit_upper _ (by omega), hexDigit_upper _ (Nat.mod_lt _ (by omega)),
    hexValue_hexDigit _ (by omega), hexValue_hexDigit _ (Nat.mod_lt _ (by omega))⟩

theorem cr_not_mem_binaryDump (data : List UInt8) {varName : Str} (h : '\r' ∉ varName)
    (compressor : List UInt8 → List UInt8) : '\r' ∉ binaryDump data varName compressor := by
  have literal : ∀ c, '\r' ∉ hexLiteral c := fun c hc => by
    obtain ⟨hi, lo, e, hhi, hlo, -⟩ := hexLiteral_form c
    have : hi ≠ '\r' ∧ lo ≠ '\r' := ⟨fun e => by subst e; revert hhi; decide,
      fun e => by subst e; revert hlo; decide⟩
    simp only [e, List.mem_cons, List.mem_singleton, List.not_mem_nil, or_false] at hc
    rcases hc with h | h | h | h | h <;> first | exact absurd h (by decide) | exact this.1 h.symm | exact this.2 h.symm
  have bytes : ∀ i (l : List UInt8), '\r' ∉ dumpBytes i l := by
    intro i l
    induction l generalizing i with
    | nil => simp [dumpBytes]
    | cons c l ih =>
      simp only [dumpBytes, List.mem_append, not_or]
      exact ⟨⟨by split <;> simp, literal c⟩, ih (i + 1)⟩
  simp only [binaryDump, declLine, closeLine, List.mem_append, not_or]
  exact ⟨⟨⟨⟨by decide, h⟩, by decide⟩, bytes 0 _⟩, by decide⟩

/-- The header text is the declaration, the chunks of sixteen compressed bytes as lines of literals,
and the closing line; every literal is `0x` and two uppercase digits, and the array reads back. -/
theorem binary_dump_layout (data : List UInt8) (varName : Str) (compressor : List UInt8 → List UInt8) :
    binaryDump data varName compressor =
        "constexpr unsigned char ".toList ++ varName ++ "[] = \x7b".toList ++
          (chunks16 (compressor data)).flatMap chunkLine ++ "\n\x7d;\n".toList ∧
      (chunks16 (compressor data)).flatten = compressor data ∧
      (∀ ch ∈ chunks16 (compressor data), 0 < ch.length ∧ ch.length ≤ 16) ∧
      (∀ ch ∈ (chunks16 (compressor data)).dropLast, ch.length = 16) ∧
      (∀ c : UInt8, ∃ hi lo, hexLiteral c = ['0', 'x', hi, lo, ','] ∧
        hi ∈ "0123456789ABCDEF".toList ∧ lo ∈ "0123456789ABCDEF".toList ∧
        hexValue hi = some (c.toNat / 16) ∧ hexValue lo = some (c.toNat % 16)) ∧
      readDump varName (binaryDump data varName compressor) = some (compressor data) :=
  ⟨by rw [binaryDump, dumpBytes_eq_chunks rfl]; rfl, flatten_chunks16 _, chunks16_sizes _,
    chunks16_full _, hexLiteral_form, readDump_binaryDump data varName compressor⟩

example : binaryDump [0x0A, 0xFF] "init_ld_xz".toList id =
    "constexpr unsigned char init_ld_xz[] = \x7b\n0x0A,0xFF,\n\x7d;\n".toList := by decide

end MagiskBuild
