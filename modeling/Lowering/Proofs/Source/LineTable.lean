import Lowering.Proofs.Source.Lines

/-!
# Look-ups in a table of line starts

A line can be looked up without splitting the text again: a table has the offset at which each line
starts, and the line of an offset is the last one that starts at or before it. The look-ups here
(`SourceText.tableLineColumn?` and `SourceText.tableLine?`) keep to 32-bit words and check each step. They
give nothing if a number does not fit in a word, a difference is negative, an index is not in the table or
a slice is not in the text.

In a text of fewer than `2 ^ 32 - 1` bytes none of this happens, and the line and the column are the ones
that `SourceText.lineColumn` finds. Behind all of it is `OnLine.lineStarts_eq`: the table is the starts up
to that of the line, which are at or before the offset, and then the starts behind the line.
-/

namespace Lowering

/-! ## Checked steps -/

/-- A number, if it fits in a 32-bit word. -/
def word? (n : Nat) : Option Nat := if n < UInt32.size then some n else none

/-- A difference, if it is not negative. -/
def difference? (m n : Nat) : Option Nat := if n ≤ m then some (m - n) else none

/-- The bytes from `start` to `stop`, if the text has them. -/
def slice? (bytes : List UInt8) (start stop : Nat) : Option (List UInt8) :=
  if start ≤ stop ∧ stop ≤ bytes.length then some ((bytes.take stop).drop start) else none

theorem word?_of_lt {n : Nat} (h : n < UInt32.size) : word? n = some n := if_pos h

theorem difference?_of_le {m n : Nat} (h : n ≤ m) : difference? m n = some (m - n) := if_pos h

theorem mapM_word? {ns : List Nat} (h : ∀ n ∈ ns, n < UInt32.size) : ns.mapM word? = some ns := by
  induction ns with
  | nil => rfl
  | cons n ns ih =>
    obtain ⟨hn, hns⟩ := List.forall_mem_cons.mp h
    rw [List.mapM_cons, ih hns, word?_of_lt hn]
    rfl

theorem slice?_middle (as bs cs : List UInt8) :
    slice? (as ++ (bs ++ cs)) as.length (as.length + bs.length) = some bs := by
  have hrange : as.length ≤ as.length + bs.length ∧
      as.length + bs.length ≤ (as ++ (bs ++ cs)).length := by
    rw [List.length_append, List.length_append]
    omega
  rw [slice?, if_pos hrange, List.take_length_add_append, List.drop_left, List.take_left]

/-! ## The table -/

/-- The offsets right behind the newlines of bytes that stand at the offset `i`. -/
def startsBehind : Nat → List UInt8 → List Nat
  | _, [] => []
  | i, b :: bs => if b = newline then (i + 1) :: startsBehind (i + 1) bs else startsBehind (i + 1) bs

/-- The offsets at which the lines of a text start. -/
def lineStarts (bytes : List UInt8) : List Nat := 0 :: startsBehind 0 bytes

/-- The line and the column of an offset. -/
def SourceText.tableLineColumn? (s : SourceText) (offset : Nat) : Option (Nat × Nat) := do
  let table ← (lineStarts s.bytes).mapM word?
  let o := min offset (← word? s.bytes.length)
  let line := max 1 (table.takeWhile (· ≤ o)).length
  let start ← table[line - 1]?
  let column ← word? ((← difference? o start) + 1)
  return (← word? line, column)

/-- The bytes of a line with its newline. -/
def SourceText.tableLine? (s : SourceText) (line : Nat) : Option (List UInt8) := do
  let table ← (lineStarts s.bytes).mapM word?
  let i ← difference? line 1
  let start ← table[i]?
  slice? s.bytes start (table[i + 1]?.getD s.bytes.length)

section

variable {i : Nat} {bs : List UInt8}

theorem startsBehind_append (i : Nat) (as bs : List UInt8) :
    startsBehind i (as ++ bs) = startsBehind i as ++ startsBehind (i + as.length) bs := by
  induction as generalizing i with
  | nil => rfl
  | cons a as ih =>
    rw [List.cons_append, startsBehind, startsBehind, ih, List.length_cons, Nat.add_right_comm i 1,
      Nat.add_assoc i]
    split <;> rfl

theorem length_startsBehind (i : Nat) (bs : List UInt8) :
    (startsBehind i bs).length = bs.count newline := by
  induction bs generalizing i with
  | nil => rfl
  | cons b bs ih =>
    rw [startsBehind]
    split
    · next hb => rw [List.length_cons, ih, hb, List.count_cons_self]
    · next hb => rw [ih, List.count_cons_of_ne hb]

theorem startsBehind_plain (h : newline ∉ bs) : startsBehind i bs = [] := by
  rw [← List.length_eq_zero_iff, length_startsBehind, List.count_eq_zero]
  exact h

/-- A line starts behind the bytes before it and not behind the text. -/
theorem bounds_startsBehind : ∀ n ∈ startsBehind i bs, i < n ∧ n ≤ i + bs.length := by
  induction bs generalizing i with
  | nil => exact List.forall_mem_nil _
  | cons b bs ih =>
    have hlater : ∀ n ∈ startsBehind (i + 1) bs, i < n ∧ n ≤ i + (bs.length + 1) := fun n hn => by
      have := ih n hn
      omega
    rw [startsBehind, List.length_cons]
    split
    · exact List.forall_mem_cons.mpr ⟨by omega, hlater⟩
    · exact hlater

/-- If text ends with a newline, the last line starts at its end. -/
theorem getElem?_lineStarts (h : bs = [] ∨ bs.getLast? = some newline) :
    (lineStarts bs)[bs.count newline]? = some bs.length := by
  rcases h with rfl | h
  · rfl
  · obtain ⟨as, rfl⟩ := List.getLast?_eq_some_iff.mp h
    rw [List.count_append, lineStarts, startsBehind_append, ← length_startsBehind 0 as]
    show (0 :: (_ ++ [0 + as.length + 1]))[_ + 1]? = _
    rw [List.getElem?_cons_succ, List.getElem?_concat_length, List.length_append, Nat.zero_add]
    rfl

end

/-! ## The look-ups -/

section

variable {text front line rest : List Char} {o : Nat}

/-- The bytes in front of a line are none, or end with a newline. -/
theorem OnLine.utf8_front_ends (h : OnLine text o front line rest) :
    utf8 front = [] ∨ (utf8 front).getLast? = some newline := by
  rcases h.front_ends with rfl | hlast
  · exact .inl rfl
  · obtain ⟨cs, rfl⟩ := List.getLast?_eq_some_iff.mp hlast
    rw [utf8_append]
    exact .inr List.getLast?_concat

/-- **The table, seen from a line.** -/
theorem OnLine.lineStarts_eq (h : OnLine text o front line rest) :
    lineStarts (utf8 text) = lineStarts (utf8 front) ++
      startsBehind ((utf8 front).length + (utf8 line).length) (utf8 rest) := by
  have hline : newline ∉ utf8 line := fun hmem => h.plain (newline_mem_utf8.mp hmem)
  rw [h.split, utf8_append, utf8_append, lineStarts, startsBehind_append, startsBehind_append,
    startsBehind_plain hline, List.append_nil, List.length_append, Nat.zero_add]
  rfl

theorem length_lineStarts (bs : List UInt8) : (lineStarts bs).length = 1 + bs.count newline := by
  rw [lineStarts, List.length_cons, length_startsBehind, Nat.add_comm]

/-- The lines that start at or before the offset are those up to its own. -/
theorem OnLine.takeWhile_lineStarts (h : OnLine text o front line rest) :
    (lineStarts (utf8 text)).takeWhile (· ≤ o) = lineStarts (utf8 front) := by
  have hstart : (utf8 front).length ≤ o := length_utf8 front ▸ h.start_le
  have hstop : o ≤ (utf8 front).length + (utf8 line).length :=
    length_utf8 front ▸ length_utf8 line ▸ h.le_stop
  have hbefore : ∀ n ∈ lineStarts (utf8 front), decide (n ≤ o) = true := by
    refine List.forall_mem_cons.mpr ⟨decide_eq_true (Nat.zero_le o), fun n hn => ?_⟩
    have := bounds_startsBehind n hn
    exact decide_eq_true (by omega)
  have hbehind : (startsBehind ((utf8 front).length + (utf8 line).length) (utf8 rest)).takeWhile
      (· ≤ o) = [] := by
    cases hs : startsBehind ((utf8 front).length + (utf8 line).length) (utf8 rest) with
    | nil => rfl
    | cons n ns =>
      have := bounds_startsBehind n (hs ▸ List.mem_cons_self)
      rw [List.takeWhile_cons_of_neg]
      simpa using by omega
  rw [h.lineStarts_eq, List.takeWhile_append_of_pos hbefore, hbehind, List.append_nil]

theorem OnLine.getElem?_lineStarts_eq (h : OnLine text o front line rest) :
    (lineStarts (utf8 text))[front.count '\n']? = some (byteLength front) := by
  have hlt : front.count '\n' < (lineStarts (utf8 front)).length := by
    rw [length_lineStarts, count_newline_utf8]
    omega
  rw [h.lineStarts_eq, List.getElem?_append_left hlt, ← count_newline_utf8,
    getElem?_lineStarts h.utf8_front_ends, length_utf8]

/-- The next line starts behind the line's newline; if there is none the text ends there. -/
theorem OnLine.getElem?_lineStarts_succ (h : OnLine text o front line rest) :
    (lineStarts (utf8 text))[front.count '\n' + 1]?.getD (utf8 text).length =
      byteLength front + byteLength (line ++ rest.take 1) := by
  have hlen : front.count '\n' + 1 = (lineStarts (utf8 front)).length := by
    rw [length_lineStarts, count_newline_utf8, Nat.add_comm]
  rw [h.lineStarts_eq, hlen, List.getElem?_append_right (Nat.le_refl _), Nat.sub_self, length_utf8,
    length_utf8, length_utf8, h.split]
  cases rest with
  | nil =>
    rw [List.append_nil, byteLength_append, List.take_nil, List.append_nil]
    rfl
  | cons c rest =>
    obtain rfl : c = '\n' := by simpa using h.rest_starts
    show byteLength front + byteLength line + 1 = _
    rw [List.take_succ_cons, List.take_zero, byteLength_append]
    rfl

end

namespace SourceText

variable {s : SourceText} {offset : Nat} {front line rest : List Char}

theorem lineTable_words (hsize : s.text.utf8ByteSize < UInt32.size - 1) :
    (lineStarts s.bytes).mapM word? = some (lineStarts s.bytes) := by
  refine mapM_word? (List.forall_mem_cons.mpr ⟨by decide, fun n hn => ?_⟩)
  have := bounds_startsBehind n hn
  rw [bytes_eq, length_utf8, ← utf8ByteSize_eq] at this
  omega

/-- **No step of the look-up goes out of range**, and it gives the line and the column. -/
theorem tableLineColumn?_eq (hsize : s.text.utf8ByteSize < UInt32.size - 1)
    (h : OnLine s.text.toList (min offset s.text.utf8ByteSize) front line rest) :
    s.tableLineColumn? offset =
      some (1 + front.count '\n', min offset s.text.utf8ByteSize - byteLength front + 1) := by
  have hcount : front.count '\n' ≤ s.text.utf8ByteSize := by
    rw [← h.count_newline_take, utf8ByteSize_eq, ← length_utf8]
    exact Nat.le_trans List.count_le_length (List.length_take_le' _ _)
  have hmax : max 1 (1 + front.count '\n') = 1 + front.count '\n' := by omega
  have hstart := h.start_le
  unfold tableLineColumn?
  rw [lineTable_words hsize, bytes_eq, length_utf8, ← utf8ByteSize_eq, word?_of_lt (by omega)]
  simp only [Option.bind_eq_bind, Option.bind_some, h.takeWhile_lineStarts, length_lineStarts,
    count_newline_utf8, hmax, Nat.add_sub_cancel_left, h.getElem?_lineStarts_eq,
    difference?_of_le hstart]
  rw [word?_of_lt (by omega), word?_of_lt (by omega)]
  rfl

/-- **The slice of a line is in the text**, and it is the line with its newline. -/
theorem tableLine?_eq {o : Nat} (hsize : s.text.utf8ByteSize < UInt32.size - 1)
    (h : OnLine s.text.toList o front line rest) :
    s.tableLine? (1 + front.count '\n') = some (utf8 (line ++ rest.take 1)) := by
  have hsplit : utf8 s.text.toList =
      utf8 front ++ (utf8 (line ++ rest.take 1) ++ utf8 (rest.drop 1)) := by
    rw [h.split, ← utf8_append, ← utf8_append, List.append_assoc line, List.take_append_drop,
      List.append_assoc]
  unfold tableLine?
  rw [lineTable_words hsize, bytes_eq]
  simp only [Option.bind_eq_bind, Option.bind_some, difference?_of_le (Nat.le_add_right 1 _),
    Nat.add_sub_cancel_left, h.getElem?_lineStarts_eq, h.getElem?_lineStarts_succ]
  rw [hsplit, ← length_utf8, ← length_utf8]
  exact slice?_middle _ _ _

end SourceText

end Lowering
