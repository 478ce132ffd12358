import Lowering.Source

/-!
# The line that a byte is on

`OnLine text o front line rest` says which line of a text the byte `o` is on, without a look-up: the text
is `front ++ line ++ rest`, the byte is in `line` or right behind it, `line` has no newline, and there is
nothing or a newline on either side of it. `Shown line rest shown` says what a reader gets to see of it.

A text is taken apart one line after the other (`lines_induction`), as the look-up does it, and
`locate_splitLines` follows the look-up: it counts the newlines in `front` and ends with the bytes of the
line that are before `o`. Newlines are counted in bytes as well (`count_newline_take`); in UTF-8 the byte
of a newline occurs in no other character.
-/

namespace Lowering

/-! ## Bytes -/

/-- The byte of a newline. -/
def newline : UInt8 := 10

/-- The bytes of characters. -/
def utf8 (cs : List Char) : List UInt8 := cs.flatMap String.utf8EncodeChar

/-- The bytes of a text. -/
def SourceText.bytes (s : SourceText) : List UInt8 := s.text.toByteArray.data.toList

/-- Texts are encoded character by character. -/
theorem utf8_append (cs ds : List Char) : utf8 (cs ++ ds) = utf8 cs ++ utf8 ds := List.flatMap_append

theorem utf8_cons (c : Char) (cs : List Char) : utf8 (c :: cs) = String.utf8EncodeChar c ++ utf8 cs :=
  List.flatMap_cons

theorem byteLength_append (cs ds : List Char) :
    byteLength (cs ++ ds) = byteLength cs + byteLength ds := by
  induction cs with
  | nil => rw [List.nil_append, byteLength, Nat.zero_add]
  | cons c cs ih => rw [List.cons_append, byteLength, byteLength, ih, Nat.add_assoc]

/-- A text has as many bytes as its characters together. -/
theorem length_utf8 (cs : List Char) : (utf8 cs).length = byteLength cs := by
  induction cs with
  | nil => rfl
  | cons c cs ih => rw [utf8_cons, List.length_append, String.length_utf8EncodeChar, ih, byteLength]

/-- The bytes of a source are the encoding of its text. -/
theorem SourceText.bytes_eq (s : SourceText) : s.bytes = utf8 s.text.toList := by
  rw [bytes, ← String.utf8Encode_toList, List.utf8Encode, List.toList_data_toByteArray]
  rfl

theorem utf8ByteSize_eq (text : String) : text.utf8ByteSize = byteLength text.toList := by
  rw [← length_utf8, ← String.size_toByteArray, ← String.utf8Encode_toList, List.utf8Encode,
    List.size_toByteArray]
  rfl

theorem utf8EncodeChar_ascii {c : Char} (hc : c.toNat < 128) :
    String.utf8EncodeChar c = [UInt8.ofNat c.toNat] := by
  unfold String.utf8EncodeChar
  exact if_pos (Nat.le_of_lt_succ hc)

/-- The bytes of a character outside ASCII are all outside ASCII. -/
theorem le_of_mem_utf8EncodeChar {c : Char} (hc : 128 ≤ c.toNat) :
    ∀ b ∈ String.utf8EncodeChar c, 128 ≤ b.toNat := by
  have hlong : ¬ c.val.toNat ≤ 127 := Nat.not_le.mpr hc
  rw [String.utf8EncodeChar]
  simp only [if_neg hlong]
  split
  · simp only [List.forall_mem_cons, UInt8.toNat_ofNat']
    exact ⟨by omega, by omega, List.forall_mem_nil _⟩
  · split
    · simp only [List.forall_mem_cons, UInt8.toNat_ofNat']
      exact ⟨by omega, by omega, by omega, List.forall_mem_nil _⟩
    · simp only [List.forall_mem_cons, UInt8.toNat_ofNat']
      exact ⟨by omega, by omega, by omega, by omega, List.forall_mem_nil _⟩

/-- The byte of a newline is among the bytes of no other character. -/
theorem newline_mem_utf8EncodeChar (c : Char) : newline ∈ String.utf8EncodeChar c ↔ c = '\n' := by
  constructor
  · intro h
    by_cases hc : c.toNat < 128
    · rw [utf8EncodeChar_ascii hc, List.mem_singleton] at h
      have hval : 10 = c.toNat % 256 := congrArg UInt8.toNat h
      have hten : c.toNat = 10 := by omega
      exact Char.toNat_inj.mp hten
    · have hge := le_of_mem_utf8EncodeChar (Nat.le_of_not_lt hc) newline h
      exact absurd hge (by decide)
  · rintro rfl
    decide

/-- **The byte of a line break occurs in no other character.** -/
theorem newline_mem_utf8 {cs : List Char} : newline ∈ utf8 cs ↔ '\n' ∈ cs := by
  simp only [utf8, List.mem_flatMap, newline_mem_utf8EncodeChar, exists_eq_right]

theorem count_newline_utf8 (cs : List Char) : (utf8 cs).count newline = cs.count '\n' := by
  induction cs with
  | nil => rfl
  | cons c cs ih =>
    rw [utf8_cons, List.count_append, ih]
    by_cases hc : c = '\n'
    · subst hc
      rw [List.count_cons_self, Nat.add_comm]
      rfl
    · rw [List.count_eq_zero.mpr fun h => hc ((newline_mem_utf8EncodeChar c).mp h), Nat.zero_add,
        List.count_cons_of_ne hc]

/-! ## The line of a byte -/

/-- The byte `o` of a text is on the line between `front` and `rest`. The place right behind a line, where
its newline is or the text ends, belongs to the line. -/
structure OnLine (text : List Char) (o : Nat) (front line rest : List Char) : Prop where
  split : text = front ++ line ++ rest
  start_le : byteLength front ≤ o
  le_stop : o ≤ byteLength front + byteLength line
  front_ends : front = [] ∨ front.getLast? = some '\n'
  plain : '\n' ∉ line
  rest_starts : rest = [] ∨ rest.head? = some '\n'

/-- What is shown of a line that has a newline behind it are the characters in front of its trailing
carriage returns. The last line is shown whole. -/
structure Shown (line rest shown : List Char) : Prop where
  whole : rest = [] → shown = line
  trimmed : rest ≠ [] → shown.getLast? ≠ some '\r' ∧ ∃ n, line = shown ++ List.replicate n '\r'

section

variable {text front line rest : List Char} {o : Nat}

theorem byteLength_newline (cs : List Char) : byteLength ('\n' :: cs) = 1 + byteLength cs := rfl

/-- A byte in front of the first line break is on the first line. -/
theorem OnLine.first {l : List Char} (hl : '\n' ∉ l) (ho : o ≤ byteLength l)
    (hrest : rest = [] ∨ rest.head? = some '\n') : OnLine (l ++ rest) o [] l rest where
  split := rfl
  start_le := Nat.zero_le o
  le_stop := by rwa [byteLength, Nat.zero_add]
  front_ends := .inl rfl
  plain := hl
  rest_starts := hrest

/-- One more line in front. -/
theorem OnLine.behind (h : OnLine text o front line rest) (l : List Char) :
    OnLine (l ++ '\n' :: text) (byteLength l + 1 + o) (l ++ '\n' :: front) line rest where
  split := by simp [h.split]
  start_le := by
    have := h.start_le
    rw [byteLength_append, byteLength_newline]
    omega
  le_stop := by
    have := h.le_stop
    rw [byteLength_append, byteLength_newline]
    omega
  front_ends := by
    right
    rcases h.front_ends with rfl | hlast
    · exact List.getLast?_concat
    · rw [List.getLast?_append, List.getLast?_cons, hlast]
      rfl
  plain := h.plain
  rest_starts := h.rest_starts

/-- The newline bytes before a byte are the newlines before its line. -/
theorem OnLine.count_newline_take (h : OnLine text o front line rest) :
    ((utf8 text).take o).count newline = front.count '\n' := by
  have hstart : (utf8 front).length ≤ o := length_utf8 front ▸ h.start_le
  have hstop : o - (utf8 front).length ≤ (utf8 line).length := by
    have := h.le_stop
    rw [length_utf8, length_utf8]
    omega
  have hline : newline ∉ (utf8 line).take (o - (utf8 front).length) := fun hmem =>
    h.plain (newline_mem_utf8.mp (List.mem_of_mem_take hmem))
  calc ((utf8 text).take o).count newline
      = ((utf8 front ++ (utf8 line ++ utf8 rest)).take o).count newline := by
        rw [h.split, utf8_append, utf8_append, List.append_assoc]
    _ = (utf8 front ++ (utf8 line).take (o - (utf8 front).length)).count newline := by
        rw [List.take_append, List.take_of_length_le hstart, List.take_append_of_le_length hstop]
    _ = front.count '\n' := by
        rw [List.count_append, count_newline_utf8, List.count_eq_zero.mpr hline, Nat.add_zero]

end

/-! ## Splitting a text -/

/-- A text is a line without newline, or such a line with a newline and a text behind it. -/
theorem lines_induction {P : List Char → Prop} (last : ∀ l, '\n' ∉ l → P l)
    (next : ∀ l text, '\n' ∉ l → P text → P (l ++ '\n' :: text)) (text : List Char) : P text := by
  induction hn : text.length using Nat.strongRecOn generalizing text with
  | ind n ih =>
    by_cases h : '\n' ∈ text
    · obtain ⟨l, text, rfl, hl⟩ := List.eq_append_cons_of_mem h
      have hlt : text.length < n := by
        rw [List.length_append, List.length_cons] at hn
        omega
      exact next l text hl (ih text.length hlt text rfl)
    · exact last text h

namespace SourceText

theorem splitLines_cons {c : Char} {cs l : List Char} {ls : List (List Char)} (hc : c ≠ '\n')
    (h : splitLines cs = l :: ls) : splitLines (c :: cs) = (c :: l) :: ls := by
  unfold splitLines at h ⊢
  rw [List.foldr_cons, if_neg hc, h]

theorem splitLines_plain {l : List Char} (hl : '\n' ∉ l) : splitLines l = [l] := by
  induction l with
  | nil => rfl
  | cons c l ih =>
    rw [List.mem_cons, not_or] at hl
    exact splitLines_cons (Ne.symm hl.1) (ih hl.2)

/-- The first line keeps its line break, and the others are split from the rest. -/
theorem splitLines_next {l : List Char} (hl : '\n' ∉ l) (text : List Char) :
    splitLines (l ++ '\n' :: text) = (l ++ ['\n']) :: splitLines text := by
  induction l with
  | nil => rfl
  | cons c l ih =>
    rw [List.mem_cons, not_or] at hl
    exact splitLines_cons (Ne.symm hl.1) (ih hl.2)

theorem exists_splitLines (text : List Char) : ∃ l ls, splitLines text = l :: ls := by
  induction text using lines_induction with
  | last l hl => exact ⟨l, [], splitLines_plain hl⟩
  | next l text hl _ => exact ⟨_, _, splitLines_next hl text⟩

/-- The look-up passes a line that ends before the byte. -/
theorem locate_next {l : List Char} (hl : '\n' ∉ l) (text : List Char) (n o : Nat) :
    locate (splitLines (l ++ '\n' :: text)) n o =
      if o < byteLength l + 1 then (n, o + 1)
      else locate (splitLines text) (n + 1) (o - (byteLength l + 1)) := by
  obtain ⟨l', ls, hls⟩ := exists_splitLines text
  rw [splitLines_next hl, hls, locate, byteLength_append]
  rfl

/-- **The look-up finds the line.** It gives its number and the place of the byte in it, and the line is
there under its number, with its newline. -/
theorem locate_splitLines (text : List Char) : ∀ n o, o ≤ byteLength text → ∃ front line rest,
    OnLine text o front line rest ∧
      locate (splitLines text) n o = (n + front.count '\n', o - byteLength front + 1) ∧
      (splitLines text)[front.count '\n']? = some (line ++ rest.take 1) := by
  induction text using lines_induction with
  | last l hl =>
    intro n o ho
    refine ⟨[], l, [], ?_, ?_, ?_⟩
    · have h := OnLine.first hl ho (.inl rfl : ([] : List Char) = [] ∨ _)
      rwa [List.append_nil] at h
    · rw [splitLines_plain hl]
      rfl
    · rw [splitLines_plain hl, List.take_nil, List.append_nil]
      rfl
  | next l text hl ih =>
    intro n o ho
    rw [locate_next hl]
    -- A line owns its newline, so the offset just behind the text of the line is still on it.
    by_cases hlt : o < byteLength l + 1
    · refine ⟨[], l, '\n' :: text, OnLine.first hl (Nat.le_of_lt_succ hlt) (.inr rfl), ?_, ?_⟩
      · rw [if_pos hlt]
        rfl
      · rw [splitLines_next hl]
        rfl
    · rw [byteLength_append, byteLength_newline] at ho
      obtain ⟨front, line, rest, hon, hloc, hat⟩ := ih (n + 1) (o - (byteLength l + 1)) (by omega)
      have hcount : (l ++ '\n' :: front).count '\n' = front.count '\n' + 1 := by
        rw [List.count_append, List.count_eq_zero.mpr hl, List.count_cons_self, Nat.zero_add]
      refine ⟨l ++ '\n' :: front, line, rest, ?_, ?_, ?_⟩
      · have h := hon.behind l
        rwa [show byteLength l + 1 + (o - (byteLength l + 1)) = o by omega] at h
      · rw [if_neg hlt, hloc, hcount, byteLength_append, byteLength_newline, Nat.sub_sub,
          Nat.add_assoc (byteLength l), Nat.add_assoc n, Nat.add_comm 1 (front.count '\n')]
      · rw [hcount, splitLines_next hl, List.getElem?_cons_succ, hat]

/-! ## What is shown -/

/-- Of a line that ends with a break, the carriage returns in front of it go too. -/
theorem trimLine_newline (line : List Char) :
    trimLine (line ++ ['\n']) = (line.reverse.dropWhile (· = '\r')).reverse := by
  unfold trimLine
  rw [List.reverse_append]
  rfl

theorem trimLine_plain {line : List Char} (h : '\n' ∉ line) : trimLine line = line := by
  unfold trimLine
  split
  · next r hr =>
    have hmem : '\n' ∈ line.reverse := hr ▸ List.mem_cons_self
    exact absurd (List.mem_reverse.mp hmem) h
  · rfl

/-- Trimming a line with its break shows what is to be shown of it. -/
theorem shown_trimLine {line rest : List Char} (hline : '\n' ∉ line)
    (hrest : rest = [] ∨ rest.head? = some '\n') : Shown line rest (trimLine (line ++ rest.take 1)) := by
  cases rest with
  | nil =>
    rw [List.take_nil, List.append_nil, trimLine_plain hline]
    exact ⟨fun _ => rfl, fun h => absurd rfl h⟩
  | cons c rest =>
    obtain rfl : c = '\n' := by simpa using hrest
    rw [List.take_succ_cons, List.take_zero, trimLine_newline]
    refine ⟨fun h => (by cases h), fun _ => ⟨?_, (line.reverse.takeWhile (· = '\r')).length, ?_⟩⟩
    · rw [List.getLast?_reverse]
      intro h
      have hhead := List.head?_dropWhile_not (· = '\r') line.reverse
      simp [h] at hhead
    · have hreturns : ∀ c ∈ line.reverse.takeWhile (· = '\r'), c = '\r' := fun c hc => by
        simpa using List.all_eq_true.mp List.all_takeWhile c hc
      rw [← List.reverse_replicate, ← List.eq_replicate_of_mem hreturns, ← List.reverse_append,
        List.takeWhile_append_dropWhile, List.reverse_reverse]

/-! ## Look-ups -/

/-- **What the look-ups give.** -/
theorem lineColumn_onLine (s : SourceText) (offset : Nat) : ∃ front line rest shown,
    OnLine s.text.toList (min offset s.text.utf8ByteSize) front line rest ∧ Shown line rest shown ∧
      s.lineColumn offset =
        (1 + front.count '\n', min offset s.text.utf8ByteSize - byteLength front + 1) ∧
      s.lineText? (1 + front.count '\n') = some (String.ofList shown) := by
  have ho : min offset s.text.utf8ByteSize ≤ byteLength s.text.toList := by
    rw [utf8ByteSize_eq]
    exact Nat.min_le_right _ _
  obtain ⟨front, line, rest, hon, hloc, hat⟩ := locate_splitLines s.text.toList 1 _ ho
  refine ⟨front, line, rest, _, hon, shown_trimLine hon.plain hon.rest_starts, hloc, ?_⟩
  rw [lineText?, if_neg (by omega), Nat.add_sub_cancel_left, lines, hat, Option.map_some]

end SourceText

end Lowering
