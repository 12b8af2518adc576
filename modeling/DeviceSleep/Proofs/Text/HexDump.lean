import DeviceSleep.Proofs.Text.Hexadecimal
import DeviceSleep.Text.Split

/-! Dumps of bytes. The text of a dump is cut into its lines, a line into the numerals of its bytes; every
line but the last is full. Nothing is lost: without blanks and line feeds a dump is the bytes in one
piece, and these are read back from it. -/
namespace DeviceSleep.Text.HexDump
set_option autoImplicit false

variable {bytes : List UInt8} {parts : List (List Char)}

/-! ## The bytes line by line -/

theorem rows_eq_nil_iff : rows bytes = [] ↔ bytes = [] := by
  cases bytes with
  | nil => simp [rows]
  | cons b bytes => simp [rows]

theorem rows_eq (bytes : List UInt8) :
    rows bytes =
      (List.range ((bytes.length + 15) / 16)).map fun i => (bytes.drop (16 * i)).take 16 := by
  induction bytes using rows.induct with
  | case1 => simp [rows]
  | case2 b bytes ih =>
    have hcount : ((b :: bytes).length + 15) / 16 = ((bytes.drop 15).length + 15) / 16 + 1 := by
      rw [List.length_cons, List.length_drop]
      omega
    have hlater : ∀ i, ((bytes.drop 15).drop (16 * i)).take 16 =
        ((b :: bytes).drop (16 * (i + 1))).take 16 := by
      intro i
      rw [List.drop_drop, Nat.mul_succ, List.drop_succ_cons, Nat.add_comm]
    rw [rows, ih, hcount, List.range_succ_eq_map, List.map_cons, List.map_map]
    exact congrArg (List.cons _) (List.map_congr_left fun i _ => hlater i)

theorem ne_nil_of_mem_rows {row : List UInt8} (h : row ∈ rows bytes) : row ≠ [] := by
  induction bytes using rows.induct with
  | case1 => simp [rows] at h
  | case2 b bytes ih =>
    rw [rows, List.mem_cons] at h
    rcases h with rfl | h
    · exact List.cons_ne_nil _ _
    · exact ih h

/-- Every line but the last is full. -/
theorem length_of_mem_dropLast_rows {row : List UInt8} (h : row ∈ (rows bytes).dropLast) :
    row.length = 16 := by
  induction bytes using rows.induct with
  | case1 => simp [rows] at h
  | case2 b bytes ih =>
    by_cases hlast : rows (bytes.drop 15) = []
    · simp [rows, hlast] at h
    · have hmore : 15 < bytes.length := by
        simpa [rows_eq_nil_iff] using hlast
      rw [rows, List.dropLast_cons_of_ne_nil hlast, List.mem_cons] at h
      rcases h with rfl | h
      · rw [List.length_cons, List.length_take]
        omega
      · exact ih h

theorem flatten_rows (bytes : List UInt8) : (rows bytes).flatten = bytes := by
  induction bytes using rows.induct with
  | case1 => simp [rows]
  | case2 b bytes ih =>
    rw [rows, List.flatten_cons, ih, List.cons_append, List.take_append_drop]

/-! ## Nothing is lost -/

theorem render_nil : render [] = [] := by simp [render, rows, lines]

theorem filter_row (bytes : List UInt8) : (row bytes).filter isMark = hexPlain bytes := by
  induction bytes using row.induct with
  | case1 => rfl
  | case2 b => rw [row, filter_hexByte, hexPlain, List.flatMap_singleton]
  | case3 b c rest ih =>
    rw [row, List.filter_append, filter_hexByte, List.filter_cons_of_neg (by decide), ih]
    rfl

theorem filter_lines (parts : List (List Char)) :
    (lines parts).filter isMark = (parts.map (List.filter isMark)).flatten := by
  induction parts using lines.induct with
  | case1 => rfl
  | case2 line => rw [lines, List.map_singleton, List.flatten_singleton]
  | case3 line next rest ih =>
    -- The line feed between two lines is no mark.
    rw [lines, List.filter_append, List.filter_cons_of_neg (by decide), ih]
    rfl

/-- The marks of a dump are the bytes in one piece. -/
theorem filter_render (bytes : List UInt8) : (render bytes).filter isMark = hexPlain bytes := by
  have hrow : List.filter isMark ∘ row = hexPlain := funext filter_row
  rw [render, filter_lines, List.map_map, hrow, ← hexPlain_flatten, flatten_rows]

theorem bytes?_filter_render (bytes : List UInt8) :
    bytes? ((render bytes).filter isMark) = some bytes := by
  rw [filter_render, bytes?_hexPlain]

/-- A dump determines the bytes. -/
theorem render_injective : Function.Injective render := by
  intro a b h
  have hread := bytes?_filter_render a
  rw [h, bytes?_filter_render] at hread
  exact (Option.some.inj hread).symm

/-! ## Cutting a dump -/

theorem row_eq_intercalate (bytes : List UInt8) : row bytes = [' '].intercalate (bytes.map hexByte) := by
  induction bytes using row.induct with
  | case1 => rfl
  | case2 b => rw [row, List.map_singleton, List.intercalate_singleton]
  | case3 b c rest ih =>
    rw [row, ih, List.map_cons, List.map_cons, List.map_cons, List.intercalate_cons_cons,
      List.append_assoc]
    rfl

theorem lines_eq_intercalate (parts : List (List Char)) : lines parts = ['\n'].intercalate parts := by
  induction parts using lines.induct with
  | case1 => rfl
  | case2 line => rw [lines, List.intercalate_singleton]
  | case3 line next rest ih =>
    rw [lines, ih, List.intercalate_cons_cons, List.append_assoc]
    rfl

theorem isMark_of_mem_hexByte {b : UInt8} {c : Char} (h : c ∈ hexByte b) : isMark c = true := by
  rw [← filter_hexByte] at h
  exact (List.mem_filter.mp h).2

theorem newline_notMem_row (bytes : List UInt8) : '\n' ∉ row bytes := by
  have hbyte : ∀ b, '\n' ∉ hexByte b := fun b h => absurd (isMark_of_mem_hexByte h) (by decide)
  induction bytes using row.induct with
  | case1 => exact List.not_mem_nil
  | case2 b => exact hbyte b
  | case3 b c rest ih => simp [row, hbyte b, ih]

/-- Between the blanks of a line stand the numerals of its bytes. -/
theorem pieces_row (hne : bytes ≠ []) : pieces ' ' (row bytes) = bytes.map hexByte := by
  have hblank : ∀ b, ' ' ∉ hexByte b := fun b h => absurd (isMark_of_mem_hexByte h) (by decide)
  rw [row_eq_intercalate]
  exact pieces_intercalate (by simpa using hne) (List.forall_mem_map.mpr fun b _ => hblank b)

/-- The lines of a text; the empty text has none. -/
def linesOf : List Char → List (List Char)
  | [] => []
  | c :: cs => pieces '\n' (c :: cs)

theorem linesOf_render (bytes : List UInt8) : linesOf (render bytes) = (rows bytes).map row := by
  by_cases hne : bytes = []
  · rw [hne, render_nil, linesOf, rows, List.map_nil]
  · have hlines : (rows bytes).map row ≠ [] := by
      simpa [rows_eq_nil_iff] using hne
    have htext : render bytes ≠ [] := fun h => hne (render_injective (h.trans render_nil.symm))
    obtain ⟨c, cs, hcs⟩ := List.exists_cons_of_ne_nil htext
    rw [hcs, linesOf, ← hcs, render, lines_eq_intercalate]
    exact pieces_intercalate hlines (List.forall_mem_map.mpr fun r _ => newline_notMem_row r)

/-! ## Ends -/

def EndsInMark (cs : List Char) : Prop := ∃ c, cs.getLast? = some c ∧ isMark c = true

theorem EndsInMark.append {back : List Char} (h : EndsInMark back) (front : List Char) :
    EndsInMark (front ++ back) := by
  obtain ⟨c, hlast, hmark⟩ := h
  exact ⟨c, by rw [List.getLast?_append, hlast, Option.some_or], hmark⟩

theorem endsInMark_hexByte (b : UInt8) : EndsInMark (hexByte b) :=
  ⟨_, rfl, isMark_hexDigit (Nat.mod_lt _ (by decide))⟩

theorem endsInMark_intercalate (separator : List Char) (hne : parts ≠ [])
    (h : ∀ part ∈ parts, EndsInMark part) : EndsInMark (separator.intercalate parts) := by
  induction parts with
  | nil => exact absurd rfl hne
  | cons part parts ih =>
    obtain ⟨hpart, hparts⟩ := List.forall_mem_cons.mp h
    cases parts with
    | nil => rwa [List.intercalate_singleton]
    | cons next parts =>
      rw [List.intercalate_cons_cons]
      exact (ih (List.cons_ne_nil _ _) hparts).append _

theorem endsInMark_row (hne : bytes ≠ []) : EndsInMark (row bytes) := by
  rw [row_eq_intercalate]
  exact endsInMark_intercalate _ (by simpa using hne)
    (List.forall_mem_map.mpr fun b _ => endsInMark_hexByte b)

theorem isMark_of_mem_getLast?_render {c : Char} (h : c ∈ (render bytes).getLast?) :
    isMark c = true := by
  by_cases hne : bytes = []
  · rw [hne, render_nil] at h
    cases h
  · have hlines : (rows bytes).map row ≠ [] := by
      simpa [rows_eq_nil_iff] using hne
    rw [render, lines_eq_intercalate] at h
    obtain ⟨d, hlast, hmark⟩ := endsInMark_intercalate ['\n'] hlines
      (List.forall_mem_map.mpr fun r hr => endsInMark_row (ne_nil_of_mem_rows hr))
    rw [hlast, Option.mem_some_iff] at h
    exact h ▸ hmark

/-- A dump has a line for every sixteen bytes, and one for what is left of them: the numerals of its bytes
in base 16, each of two digits, with single blanks between. All lines but the last are full, and neither a
line nor the text ends in a blank or a line feed. The bytes are read back from what is left without blanks
and line feeds, so different bytes have different dumps. -/
theorem dump_loses_nothing :
    (∀ bytes : List UInt8,
      (linesOf (render bytes)).length = (bytes.length + 15) / 16 ∧
      (linesOf (render bytes)).map (pieces ' ') =
        (List.range ((bytes.length + 15) / 16)).map (fun i =>
          ((bytes.drop (16 * i)).take 16).map fun b => (Nat.toDigits 16 b.toNat).leftpad 2 '0') ∧
      (∀ line ∈ (linesOf (render bytes)).dropLast, (pieces ' ' line).length = 16) ∧
      (∀ line ∈ linesOf (render bytes), EndsInMark line) ∧
      (∀ c ∈ (render bytes).getLast?, isMark c = true) ∧
      bytes? ((render bytes).filter isMark) = some bytes) ∧
    Function.Injective render := by
  refine ⟨fun bytes => ⟨?_, ?_, ?_, ?_, ?_, bytes?_filter_render bytes⟩, render_injective⟩
  · rw [linesOf_render, List.length_map, rows_eq, List.length_map, List.length_range]
  · have hpieces : ∀ r ∈ rows bytes, (pieces ' ' ∘ row) r =
        r.map fun b => (Nat.toDigits 16 b.toNat).leftpad 2 '0' := by
      intro r hr
      rw [Function.comp_apply, pieces_row (ne_nil_of_mem_rows hr)]
      exact List.map_congr_left fun b _ => hexByte_eq_leftpad b
    rw [linesOf_render, List.map_map, List.map_congr_left hpieces, rows_eq, List.map_map]
    rfl
  · rw [linesOf_render, ← List.map_dropLast, List.forall_mem_map]
    intro r hr
    rw [pieces_row (ne_nil_of_mem_rows ((List.dropLast_sublist _).subset hr)), List.length_map]
    exact length_of_mem_dropLast_rows hr
  · rw [linesOf_render, List.forall_mem_map]
    exact fun r hr => endsInMark_row (ne_nil_of_mem_rows hr)
  · exact fun c => isMark_of_mem_getLast?_render

end DeviceSleep.Text.HexDump
