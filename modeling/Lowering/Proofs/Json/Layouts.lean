import Lowering.Json.Reader
import Lowering.Json.Writer

/-!
# Reading what is written

A reader gets back every value from its text, in either layout (`read_compact`, `read_pretty`), unless
the value holds a part that has no text of its own.

A text is taken as a function that puts it in front of a rest, as writers make it. `Writes text j`
says that wherever a value may come, the reader takes `text` for `j` and nothing of the rest. There is
one rule for each kind of value, with room for blanks, so that both layouts follow the same rules.
-/

namespace Lowering.Json

/-! ## Values with a text of their own -/

mutual

/-- The value can be told from its text. -/
def Plain : Json → Prop
  | .arr items => PlainItems items
  | .obj fields => PlainFields fields
  | .null | .bool _ | .int _ | .str _ => True
  | .other => False

def PlainItems : List Json → Prop
  | [] => True
  | j :: js => j.Plain ∧ PlainItems js

def PlainFields : List (String × Json) → Prop
  | [] => True
  | (_, j) :: fs => j.Plain ∧ PlainFields fs

end

/-- An array has a text of its own if its items have. -/
theorem plainItems_iff {items : List Json} : PlainItems items ↔ ∀ j ∈ items, j.Plain := by
  induction items with
  | nil => simp [PlainItems]
  | cons j js ih => rw [PlainItems, List.forall_mem_cons, ih]

theorem plainFields_iff {fields : List (String × Json)} :
    PlainFields fields ↔ ∀ f ∈ fields, f.2.Plain := by
  induction fields with
  | nil => simp [PlainFields]
  | cons f fs ih => rw [PlainFields, List.forall_mem_cons, ih]

@[simp] theorem plain_null : Json.null.Plain := trivial

@[simp] theorem plain_bool (b : Bool) : (Json.bool b).Plain := trivial

@[simp] theorem plain_int (n : Int) : (Json.int n).Plain := trivial

@[simp] theorem plain_nat (n : Nat) : (Json.nat n).Plain := trivial

@[simp] theorem plain_str (s : String) : (Json.str s).Plain := trivial

@[simp] theorem plain_arr {items : List Json} : (Json.arr items).Plain ↔ ∀ j ∈ items, j.Plain := by
  rw [Plain, plainItems_iff]

@[simp] theorem plain_obj {fields : List (String × Json)} :
    (Json.obj fields).Plain ↔ ∀ f ∈ fields, f.2.Plain := by
  rw [Plain, plainFields_iff]

/-! ## Reading on -/

/-- What the reader makes of the characters that are left. -/
def Reader.run (r : Reader) (cs : List Char) : Option Json := (cs.foldlM Reader.step r).bind (·.finish)

theorem Reader.run_nil (r : Reader) : r.run [] = r.finish := rfl

/-- A text is read character by character. -/
theorem Reader.run_cons (r : Reader) (c : Char) (cs : List Char) :
    r.run (c :: cs) = (r.step c).bind (·.run cs) := by
  unfold Reader.run
  rw [List.foldlM_cons, Option.bind_eq_bind, Option.bind_assoc]

/-- The same, between two tokens. -/
def Builder.run (b : Builder) (cs : List Char) : Option Json := Reader.run ⟨b, .gap⟩ cs

theorem Builder.run_cons (b : Builder) (c : Char) (cs : List Char) :
    b.run (c :: cs) = (Reader.start b c).bind (·.run cs) :=
  Reader.run_cons _ _ _

theorem Reader.emit_bind (b : Builder) (t : Token) (cs : List Char) :
    (Reader.emit b t).bind (·.run cs) = (b.push t).bind (·.run cs) := by
  rw [Reader.emit, Option.bind_map]
  rfl

/-- Blanks between tokens do not count. -/
theorem Builder.run_newLine (b : Builder) (level : Nat) (cs : List Char) :
    b.run (newLine level cs) = b.run cs := by
  have hblanks : ∀ n, b.run (List.replicate n ' ' ++ cs) = b.run cs := by
    intro n
    induction n with
    | zero => rfl
    | succ n ih => exact ih
  exact hblanks (2 * level)

/-- The characters that no token goes on with. -/
def terminators : List Char := [' ', '\n', '\t', '\r', ',', ']', '\x7d']

/-- Behind a token: nothing, or a character that no token goes on with. -/
def Ends (rest : List Char) : Prop := ∀ c ∈ rest.head?, c ∈ terminators

theorem ends_nil : Ends [] := fun _ hc => nomatch hc

/-- A value ends where a separator, a bracket or a blank follows. -/
theorem ends_cons {c : Char} {rest : List Char} (hc : c ∈ terminators) : Ends (c :: rest) := by
  rintro _ ⟨⟩
  exact hc

/-! ## Texts of values -/

/-- Wherever a value may come, the reader takes the text for the value. -/
def Writes (text : List Char → List Char) (j : Json) : Prop :=
  ∀ (b b' : Builder) rest, b.wantsValue = true → Builder.put j b.frames = some b' → Ends rest →
    b.run (text rest) = b'.run rest

/-- A blank in front of a value makes no difference. -/
theorem Writes.blank {text : List Char → List Char} {j : Json} (h : Writes text j) :
    Writes (fun rest => ' ' :: text rest) j := h

/-- The text of a token that is a value. -/
theorem Writes.of_token {text : List Char → List Char} {j : Json} {t : Token}
    (hpush : ∀ b : Builder, b.wantsValue = true → b.push t = Builder.put j b.frames)
    (hrun : ∀ (b : Builder) rest, Ends rest → b.run (text rest) = (b.push t).bind (·.run rest)) :
    Writes text j := by
  intro b b' rest hb hput hrest
  rw [hrun b rest hrest, hpush b hb, hput]
  rfl

/-- A value is put where one is wanted. -/
theorem Builder.push_atom {b : Builder} (hb : b.wantsValue = true) (j : Json) :
    b.push (.atom j) = Builder.put j b.frames := if_pos hb

theorem Builder.push_string {b : Builder} (hb : b.wantsValue = true) (s : String) :
    b.push (.string (some s)) = Builder.put (.str s) b.frames := by
  obtain ⟨frames, expect⟩ := b
  cases expect with
  | value => rfl
  | valueOrClose => rfl
  | keyOrClose | key | colon | commaOrClose | finished => cases hb

/-! ## Strings -/

theorem hexValue_hexDigit : ∀ n < 16, hexValue (Text.hexDigit n) = some n := by
  decide

theorem StringState.pushCode_control {s : StringState} (hs : s.surrogate = none) {c : Char}
    (hc : c.toNat < 0x20) : s.pushCode c.toNat = s.push c := by
  unfold StringState.pushCode StringState.push
  rw [hs]
  dsimp only
  rw [if_neg (by omega), if_neg (by omega), Char.ofNat_toNat, Option.isNone_none, Bool.and_true]

/-- A character is read as itself, in whatever way it is written. -/
theorem Reader.run_escapeChar (b : Builder) {s : StringState} (hs : s.surrogate = none) (c : Char)
    (rest : List Char) :
    Reader.run ⟨b, .string s⟩ (escapeChar c rest) = Reader.run ⟨b, .string (s.push c)⟩ rest := by
  unfold escapeChar
  by_cases hquote : c = '"'
  · rw [if_pos hquote, hquote]
    rfl
  by_cases hback : c = '\\'
  · rw [if_neg hquote, if_pos hback, hback]
    rfl
  rw [if_neg hquote, if_neg hback]
  -- the characters with a letter of their own
  iterate 5
    split
    · next hletter =>
      rw [hletter]
      rfl
  by_cases hcontrol : c.toNat < 0x20
  · have hhigh : hexValue (Text.hexDigit (c.toNat / 16)) = some (c.toNat / 16) :=
      hexValue_hexDigit _ (by omega)
    have hlow : hexValue (Text.hexDigit (c.toNat % 16)) = some (c.toNat % 16) :=
      hexValue_hexDigit _ (by omega)
    have hcode : s.pushCode ((0 * 16 + c.toNat / 16) * 16 + c.toNat % 16) = s.push c := by
      rw [← StringState.pushCode_control hs hcontrol]
      congr 1
      omega
    rw [if_pos hcontrol, ← hcode]
    calc Reader.run ⟨b, .string s⟩ ('\\' :: 'u' :: '0' :: '0' :: Text.hexDigit (c.toNat / 16) ::
          Text.hexDigit (c.toNat % 16) :: rest)
        = Reader.run ⟨b, .code s 1 0⟩ (Text.hexDigit (c.toNat / 16) ::
          Text.hexDigit (c.toNat % 16) :: rest) := rfl
      _ = _ := by
        simp only [Reader.run_cons, Reader.step, hhigh, hlow, Option.bind_some]
  · rw [if_neg hcontrol, Reader.run_cons]
    simp only [Reader.step, if_neg hquote, if_neg hback, if_neg hcontrol]
    rfl

/-- An escaped text is read as the text. -/
theorem Reader.run_escaped (b : Builder) (cs rest : List Char) {s : StringState}
    (hs : s.surrogate = none) :
    Reader.run ⟨b, .string s⟩ (cs.foldr escapeChar rest) =
      Reader.run ⟨b, .string (cs.foldl StringState.push s)⟩ rest := by
  induction cs generalizing s with
  | nil => rfl
  | cons c cs ih =>
    rw [List.foldr_cons, List.foldl_cons, Reader.run_escapeChar b hs]
    exact ih rfl

/-- Characters are collected in their order. -/
theorem StringState.finish_foldl_push (cs : List Char) {s : StringState} (hw : s.wellFormed = true)
    (hs : s.surrogate = none) :
    (cs.foldl StringState.push s).finish = some (String.ofList (s.chars.reverse ++ cs)) := by
  induction cs generalizing s with
  | nil =>
    rw [List.foldl_nil, StringState.finish, hw, hs, List.append_nil]
    rfl
  | cons c cs ih =>
    rw [List.foldl_cons, ih (show (s.wellFormed && s.surrogate.isNone) = true by rw [hw, hs]; rfl) rfl]
    simp [StringState.push]

/-- A string is read as one token. -/
theorem Builder.run_writeString (b : Builder) (s : String) (rest : List Char) :
    b.run (writeString s rest) = (b.push (.string (some s))).bind (·.run rest) := by
  have hfinish : (s.toList.foldl StringState.push .empty).finish = some s := by
    rw [StringState.finish_foldl_push _ rfl rfl]
    simp [StringState.empty]
  calc b.run (writeString s rest)
      = Reader.run ⟨b, .string .empty⟩ (s.toList.foldr escapeChar ('"' :: rest)) := rfl
    _ = Reader.run ⟨b, .string (s.toList.foldl StringState.push .empty)⟩ ('"' :: rest) :=
      Reader.run_escaped b _ _ rfl
    _ = (Reader.emit b (.string (some s))).bind (·.run rest) := by
      rw [Reader.run_cons, ← hfinish]
      rfl
    _ = (b.push (.string (some s))).bind (·.run rest) := Reader.emit_bind b _ _

/-- **A string is read back from its text**, whatever characters it has. -/
theorem writes_string (s : String) : Writes (writeString s) (.str s) :=
  .of_token (fun b hb => b.push_string hb s) fun b rest _ => b.run_writeString s rest

/-! ## Numbers -/

theorem NumberPhase.next_of_mem {phase : NumberPhase} (hphase : phase = .zero ∨ phase = .digits)
    {c : Char} (hc : c ∈ terminators) : phase.next c = none := by
  simp only [terminators, List.mem_cons, List.not_mem_nil, or_false] at hc
  rcases hphase with rfl | rfl
  · rcases hc with rfl | rfl | rfl | rfl | rfl | rfl | rfl <;> rfl
  · rcases hc with rfl | rfl | rfl | rfl | rfl | rfl | rfl <;> rfl

/-- A whole number ends in front of a character that no token goes on with. -/
theorem Reader.run_number (b : Builder) {phase : NumberPhase} {negative : Bool} {magnitude : Nat}
    {n : Int} (hv : phase.value? negative magnitude = some (.int n)) {rest : List Char}
    (hrest : Ends rest) :
    Reader.run ⟨b, .number phase negative magnitude⟩ rest = (b.push (.atom (.int n))).bind (·.run rest) := by
  cases rest with
  | nil =>
    rw [Reader.run_nil, Reader.finish]
    dsimp only
    rw [hv]
    rfl
  | cons c cs =>
    have hphase : phase = .zero ∨ phase = .digits := by
      cases phase with
      | zero => exact .inl rfl
      | digits => exact .inr rfl
      | sign | point | fraction | mark | markSign | exponent => cases hv
    have hnext : phase.next c = none := NumberPhase.next_of_mem hphase (hrest c rfl)
    rw [Reader.run_cons]
    simp only [Reader.step, hnext, hv, Option.bind_assoc, Builder.run_cons]

/-- One more digit. -/
theorem Reader.step_digit (b : Builder) (negative : Bool) (m : Nat) {d : Nat} (hd : d < 10) :
    Reader.step ⟨b, .number .digits negative m⟩ d.digitChar =
      some ⟨b, .number .digits negative (m * 10 + d)⟩ := by
  have hdigit : d.digitChar.isDigit = true := by rw [Nat.isDigit_digitChar, decide_eq_true hd]
  simp only [Reader.step, NumberPhase.next, if_pos hdigit, if_true, Nat.toNat_digitChar_sub_48_of_lt_ten hd]

/-- A first digit that is not zero. -/
theorem Reader.step_firstDigit (b : Builder) (negative : Bool) {d : Nat} (hd : d < 10) (hpos : 0 < d) :
    Reader.step ⟨b, .number .sign negative 0⟩ d.digitChar = some ⟨b, .number .digits negative d⟩ := by
  have hdigit : d.digitChar.isDigit = true := by rw [Nat.isDigit_digitChar, decide_eq_true hd]
  have hzero : d.digitChar ≠ '0' := fun h => by
    rw [Nat.digitChar_eq_zero] at h
    omega
  simp only [Reader.step, NumberPhase.next, if_neg hzero, if_pos hdigit, if_true,
    Nat.toNat_digitChar_sub_48_of_lt_ten hd, Nat.zero_mul, Nat.zero_add]

/-- A number without a sign starts like one behind its sign. -/
theorem Reader.start_digit (b : Builder) {c : Char} (hc : c.isDigit = true) :
    Reader.start b c = Reader.step ⟨b, .number .sign false 0⟩ c := by
  have hblank : ¬isBlank c = true := by
    intro h
    simp only [isBlank, Bool.or_eq_true, beq_iff_eq] at h
    rcases h with ((rfl | rfl) | rfl) | rfl <;> cases hc
  unfold Reader.start
  rw [if_neg hblank]
  split
  iterate 11 cases hc
  by_cases hzero : c = '0'
  · rw [hzero]
    rfl
  · simp only [Reader.step, NumberPhase.next, if_neg hzero, if_pos hc, Option.map_some, if_true,
      Nat.zero_mul, Nat.zero_add]

/-- The digits of a number that is not zero. -/
theorem Reader.run_digits (b : Builder) (negative : Bool) {n : Nat} (hn : 0 < n) (rest : List Char) :
    Reader.run ⟨b, .number .sign negative 0⟩ (Nat.toDigits 10 n ++ rest) =
      Reader.run ⟨b, .number .digits negative n⟩ rest := by
  induction n using Nat.strongRecOn generalizing rest with
  | ind n ih =>
    by_cases hlt : n < 10
    · rw [Nat.toDigits_of_lt_base hlt, List.singleton_append, Reader.run_cons,
        Reader.step_firstDigit b negative hlt hn, Option.bind_some]
    · rw [Nat.toDigits_of_base_le (by decide) (Nat.le_of_not_lt hlt), List.append_assoc,
        ih (n / 10) (by omega) (by omega), List.singleton_append, Reader.run_cons,
        Reader.step_digit b negative _ (Nat.mod_lt n (by decide)), Option.bind_some,
        Nat.div_add_mod']

/-- A whole number is read as one token. -/
theorem Builder.run_writeInt (b : Builder) (n : Int) {rest : List Char} (hrest : Ends rest) :
    b.run (writeInt n rest) = (b.push (.atom (.int n))).bind (·.run rest) := by
  unfold writeInt
  rw [Int.toString_eq_repr, Int.repr_eq_if]
  by_cases hn : 0 ≤ n
  · obtain ⟨k, rfl⟩ := Int.eq_ofNat_of_zero_le hn
    rw [if_pos hn, Int.toNat_natCast, Nat.toList_repr]
    -- A leading zero ends the number's digits, so zero is read in a phase of its own.
    by_cases hk : 0 < k
    · have hunsigned : b.run (Nat.toDigits 10 k ++ rest) =
          Reader.run ⟨b, .number .sign false 0⟩ (Nat.toDigits 10 k ++ rest) := by
        cases hdigits : Nat.toDigits 10 k with
        | nil => exact absurd hdigits Nat.toDigits_ne_nil
        | cons c cs =>
          have hc : c.isDigit = true := by
            have hmem : c ∈ Nat.toDigits 10 k := by
              rw [hdigits]
              exact List.mem_cons_self
            exact Nat.isDigit_of_mem_toDigits (by decide) (by decide) hmem
          rw [List.cons_append, Builder.run_cons, Reader.run_cons, Reader.start_digit b hc]
      rw [hunsigned, Reader.run_digits b false hk]
      exact Reader.run_number b rfl hrest
    · obtain rfl : k = 0 := by omega
      exact Reader.run_number b rfl hrest
  · have hpos : 0 < (-n).toNat := by omega
    have hvalue : NumberPhase.value? .digits true (-n).toNat = some (.int n) := by
      simp only [NumberPhase.value?, if_true]
      congr 2
      omega
    rw [if_neg hn, String.toList_append, Nat.toList_repr]
    exact (Reader.run_digits b true hpos rest).trans (Reader.run_number b hvalue hrest)

/-- **A number is read back from its text.** -/
theorem writes_int (n : Int) : Writes (writeInt n) (.int n) :=
  .of_token (fun _ hb => Builder.push_atom hb _) fun b _ hrest => b.run_writeInt n hrest

/-! ## Words -/

/-- The last character of a word. -/
theorem Reader.run_word (b : Builder) (last : Char) (j : Json) (rest : List Char) :
    Reader.run ⟨b, .word [last] j⟩ (last :: rest) = (b.push (.atom j)).bind (·.run rest) := by
  rw [Reader.run_cons, Reader.step]
  dsimp only
  rw [if_pos rfl, Reader.emit_bind]

theorem writes_true : Writes (fun rest => 't' :: 'r' :: 'u' :: 'e' :: rest) (.bool true) :=
  .of_token (fun _ hb => Builder.push_atom hb _) fun b rest _ => Reader.run_word b 'e' (.bool true) rest

theorem writes_false : Writes (fun rest => 'f' :: 'a' :: 'l' :: 's' :: 'e' :: rest) (.bool false) :=
  .of_token (fun _ hb => Builder.push_atom hb _) fun b rest _ => Reader.run_word b 'e' (.bool false) rest

theorem writes_null : Writes (fun rest => 'n' :: 'u' :: 'l' :: 'l' :: rest) .null :=
  .of_token (fun _ hb => Builder.push_atom hb _) fun b rest _ => Reader.run_word b 'l' .null rest

/-! ## Arrays -/

/-- In an open array that waits for an item, the reader takes the text for these items. -/
def WritesItems (text : List Char → List Char) (items : List Json) : Prop :=
  ∀ acc fs expect rest, Builder.wantsValue ⟨.arr acc :: fs, expect⟩ = true → Ends rest →
    Builder.run ⟨.arr acc :: fs, expect⟩ (text rest) =
      Builder.run ⟨.arr (items.reverse ++ acc) :: fs, .commaOrClose⟩ rest

namespace WritesItems

variable {text more : List Char → List Char} {j : Json} {js items : List Json}

theorem single (h : Writes text j) : WritesItems text [j] :=
  fun _ _ _ rest he hrest => h _ _ rest he rfl hrest

theorem cons (h : Writes text j) (hmore : WritesItems more js) :
    WritesItems (fun rest => text (',' :: more rest)) (j :: js) := by
  intro acc fs expect rest he hrest
  have hcomma : Ends (',' :: more rest) := ends_cons (by decide)
  calc Builder.run ⟨.arr acc :: fs, expect⟩ (text (',' :: more rest))
      = Builder.run ⟨.arr (j :: acc) :: fs, .commaOrClose⟩ (',' :: more rest) := h _ _ _ he rfl hcomma
    _ = Builder.run ⟨.arr (j :: acc) :: fs, .value⟩ (more rest) := rfl
    _ = Builder.run ⟨.arr (js.reverse ++ j :: acc) :: fs, .commaOrClose⟩ rest :=
      hmore _ _ _ rest rfl hrest
    _ = Builder.run ⟨.arr ((j :: js).reverse ++ acc) :: fs, .commaOrClose⟩ rest := by
      rw [List.reverse_cons, List.append_assoc, List.singleton_append]

/-- Items may start on a new line. -/
theorem newLine (level : Nat) (h : WritesItems text items) :
    WritesItems (fun rest => Json.newLine level (text rest)) items := by
  intro acc fs expect rest he hrest
  rw [Builder.run_newLine]
  exact h acc fs expect rest he hrest

/-- What follows items may start on a new line. -/
theorem newLineBehind (level : Nat) (h : WritesItems text items) :
    WritesItems (fun rest => text (Json.newLine level rest)) items := by
  intro acc fs expect rest he hrest
  have hend : Ends (Json.newLine level rest) := ends_cons (by decide)
  exact (h acc fs expect _ he hend).trans (Builder.run_newLine _ level rest)

end WritesItems

/-- The bracket that opens an array. -/
theorem Builder.run_openArr {b : Builder} (hb : b.wantsValue = true) (cs : List Char) :
    b.run ('[' :: cs) = Builder.run ⟨.arr [] :: b.frames, .valueOrClose⟩ cs := by
  rw [Builder.run_cons, show Reader.start b '[' = Reader.emit b .openArr from rfl, Reader.emit_bind,
    show b.push .openArr = some ⟨.arr [] :: b.frames, .valueOrClose⟩ from if_pos hb, Option.bind_some]

theorem writes_nilArr : Writes (fun rest => '[' :: ']' :: rest) (.arr []) := by
  intro b b' rest hb hput _
  rw [Builder.run_openArr hb, Builder.run_cons]
  refine (Reader.emit_bind ⟨.arr [] :: b.frames, .valueOrClose⟩ .closeArr rest).trans ?_
  exact congrArg (Option.bind · (Builder.run · rest)) hput

/-- An array is read back if its items are. -/
theorem writes_arr {text : List Char → List Char} {items : List Json} (h : WritesItems text items) :
    Writes (fun rest => '[' :: text (']' :: rest)) (.arr items) := by
  intro b b' rest hb hput _
  rw [Builder.run_openArr hb, h _ _ _ _ rfl (ends_cons (by decide)), List.append_nil, Builder.run_cons]
  refine (Reader.emit_bind ⟨.arr items.reverse :: b.frames, .commaOrClose⟩ .closeArr rest).trans ?_
  rw [← List.reverse_reverse items] at hput
  exact congrArg (Option.bind · (Builder.run · rest)) hput

/-! ## Objects -/

/-- In an open object that waits for a key, the reader takes the text for these fields. -/
def WritesFields (text : List Char → List Char) (fields : List (String × Json)) : Prop :=
  ∀ acc fs expect rest, expect = .key ∨ expect = .keyOrClose → Ends rest →
    Builder.run ⟨.obj acc true :: fs, expect⟩ (text rest) =
      Builder.run ⟨.obj (fields.reverse ++ acc) true :: fs, .commaOrClose⟩ rest

namespace WritesFields

variable {text more : List Char → List Char} {k : String} {j : Json} {fields : List (String × Json)}

theorem single (h : Writes text j) :
    WritesFields (fun rest => writeString k (':' :: text rest)) [(k, j)] := by
  intro acc fs expect rest he hrest
  have hkey : Builder.push ⟨.obj acc true :: fs, expect⟩ (.string (some k)) =
      some ⟨.field (some k) acc true :: fs, .colon⟩ := by
    rcases he with rfl | rfl <;> rfl
  calc Builder.run ⟨.obj acc true :: fs, expect⟩ (writeString k (':' :: text rest))
      = Builder.run ⟨.field (some k) acc true :: fs, .colon⟩ (':' :: text rest) := by
        rw [Builder.run_writeString, hkey, Option.bind_some]
    _ = Builder.run ⟨.field (some k) acc true :: fs, .value⟩ (text rest) := rfl
    _ = Builder.run ⟨.obj ((k, j) :: acc) true :: fs, .commaOrClose⟩ rest := h _ _ _ rfl rfl hrest

theorem cons (h : WritesFields text [(k, j)]) (hmore : WritesFields more fields) :
    WritesFields (fun rest => text (',' :: more rest)) ((k, j) :: fields) := by
  intro acc fs expect rest he hrest
  have hcomma : Ends (',' :: more rest) := ends_cons (by decide)
  calc Builder.run ⟨.obj acc true :: fs, expect⟩ (text (',' :: more rest))
      = Builder.run ⟨.obj ((k, j) :: acc) true :: fs, .commaOrClose⟩ (',' :: more rest) :=
      h _ _ _ _ he hcomma
    _ = Builder.run ⟨.obj ((k, j) :: acc) true :: fs, .key⟩ (more rest) := rfl
    _ = Builder.run ⟨.obj (fields.reverse ++ (k, j) :: acc) true :: fs, .commaOrClose⟩ rest :=
      hmore _ _ _ rest (.inl rfl) hrest
    _ = Builder.run ⟨.obj (((k, j) :: fields).reverse ++ acc) true :: fs, .commaOrClose⟩ rest := by
      rw [List.reverse_cons, List.append_assoc, List.singleton_append]

theorem newLine (level : Nat) (h : WritesFields text fields) :
    WritesFields (fun rest => Json.newLine level (text rest)) fields := by
  intro acc fs expect rest he hrest
  rw [Builder.run_newLine]
  exact h acc fs expect rest he hrest

theorem newLineBehind (level : Nat) (h : WritesFields text fields) :
    WritesFields (fun rest => text (Json.newLine level rest)) fields := by
  intro acc fs expect rest he hrest
  have hend : Ends (Json.newLine level rest) := ends_cons (by decide)
  exact (h acc fs expect _ he hend).trans (Builder.run_newLine _ level rest)

end WritesFields

/-- Behind an opening brace a key or the closing brace is wanted. -/
theorem Builder.run_openObj {b : Builder} (hb : b.wantsValue = true) (cs : List Char) :
    b.run ('\x7b' :: cs) = Builder.run ⟨.obj [] true :: b.frames, .keyOrClose⟩ cs := by
  rw [Builder.run_cons, show Reader.start b '\x7b' = Reader.emit b .openObj from rfl, Reader.emit_bind,
    show b.push .openObj = some ⟨.obj [] true :: b.frames, .keyOrClose⟩ from if_pos hb, Option.bind_some]

theorem writes_nilObj : Writes (fun rest => '\x7b' :: '\x7d' :: rest) (.obj []) := by
  intro b b' rest hb hput _
  rw [Builder.run_openObj hb, Builder.run_cons]
  refine (Reader.emit_bind ⟨.obj [] true :: b.frames, .keyOrClose⟩ .closeObj rest).trans ?_
  exact congrArg (Option.bind · (Builder.run · rest)) hput

/-- An object is read back, with its fields in order. -/
theorem writes_obj {text : List Char → List Char} {fields : List (String × Json)}
    (h : WritesFields text fields) :
    Writes (fun rest => '\x7b' :: text ('\x7d' :: rest)) (.obj fields) := by
  intro b b' rest hb hput _
  rw [Builder.run_openObj hb, h _ _ _ _ (.inr rfl) (ends_cons (by decide)), List.append_nil,
    Builder.run_cons]
  refine (Reader.emit_bind ⟨.obj fields.reverse true :: b.frames, .commaOrClose⟩ .closeObj rest).trans ?_
  rw [← List.reverse_reverse fields] at hput
  exact congrArg (Option.bind · (Builder.run · rest)) hput

/-! ## Layouts -/

/-- A value without parts has the same text in both layouts. -/
theorem writes_writeAtom {j : Json} (h : j.Plain) (hatom : j.depth = 0) : Writes (writeAtom j) j := by
  cases j with
  | null => exact writes_null
  | bool b =>
    cases b with
    | true => exact writes_true
    | false => exact writes_false
  | int n => exact writes_int n
  | str s => exact writes_string s
  | arr items => cases hatom
  | obj fields => cases hatom
  | other => cases h

mutual

/-- The reader takes a value on one line for itself. -/
theorem writes_write (j : Json) (h : j.Plain) : Writes j.write j := by
  cases j with
  | arr items =>
    cases items with
    | nil => exact writes_nilArr
    | cons j js => exact writes_arr (writesItems_write (j :: js) h (List.cons_ne_nil j js))
  | obj fields =>
    cases fields with
    | nil => exact writes_nilObj
    | cons f fs => exact writes_obj (writesFields_write (f :: fs) h (List.cons_ne_nil f fs))
  | null | bool _ | int _ | str _ | other => exact writes_writeAtom h rfl

theorem writesItems_write (items : List Json) (h : PlainItems items) (hne : items ≠ []) :
    WritesItems (writeItems items) items := by
  cases items with
  | nil => exact absurd rfl hne
  | cons j js =>
    have hj := writes_write j h.1
    have hjs := writesItems_write js h.2
    cases js with
    | nil => exact .single hj
    | cons j' js => exact .cons hj (hjs (List.cons_ne_nil j' js))

theorem writesFields_write (fields : List (String × Json)) (h : PlainFields fields) (hne : fields ≠ []) :
    WritesFields (writeFields fields) fields := by
  cases fields with
  | nil => exact absurd rfl hne
  | cons f fs =>
    cases f with
    | mk k j =>
      have hfs := writesFields_write fs h.2
      have hf : WritesFields (fun rest => writeString k (':' :: j.write rest)) [(k, j)] :=
        .single (writes_write j h.1)
      cases fs with
      | nil => exact hf
      | cons f' fs => exact hf.cons (hfs (List.cons_ne_nil f' fs))

end

mutual

/-- The reader takes an indented value for itself. -/
theorem writes_writeAt (level : Nat) (j : Json) (h : j.Plain) : Writes (j.writeAt level) j := by
  cases j with
  | arr items =>
    cases items with
    | nil => exact writes_nilArr
    | cons j js =>
      have hitems := writesItems_writeAt (level + 1) (j :: js) h (List.cons_ne_nil j js)
      exact writes_arr (hitems.newLineBehind level)
  | obj fields =>
    cases fields with
    | nil => exact writes_nilObj
    | cons f fs =>
      have hfields := writesFields_writeAt (level + 1) (f :: fs) h (List.cons_ne_nil f fs)
      exact writes_obj (hfields.newLineBehind level)
  | null | bool _ | int _ | str _ | other => exact writes_writeAtom h rfl

theorem writesItems_writeAt (level : Nat) (items : List Json) (h : PlainItems items) (hne : items ≠ []) :
    WritesItems (writeItemsAt level items) items := by
  cases items with
  | nil => exact absurd rfl hne
  | cons j js =>
    have hj := writes_writeAt level j h.1
    have hjs := writesItems_writeAt level js h.2
    cases js with
    | nil => exact (WritesItems.single hj).newLine level
    | cons j' js => exact (WritesItems.cons hj (hjs (List.cons_ne_nil j' js))).newLine level

theorem writesFields_writeAt (level : Nat) (fields : List (String × Json)) (h : PlainFields fields)
    (hne : fields ≠ []) : WritesFields (writeFieldsAt level fields) fields := by
  cases fields with
  | nil => exact absurd rfl hne
  | cons f fs =>
    cases f with
    | mk k j =>
      have hfs := writesFields_writeAt level fs h.2
      have hf : WritesFields (fun rest => writeString k (':' :: ' ' :: j.writeAt level rest)) [(k, j)] :=
        .single (writes_writeAt level j h.1).blank
      cases fs with
      | nil => exact hf.newLine level
      | cons f' fs => exact (hf.cons (hfs (List.cons_ne_nil f' fs))).newLine level

end

/-- A text of a value is a whole JSON text. -/
theorem Writes.read {text : List Char → List Char} {j : Json} (h : Writes text j) :
    read (String.ofList (text [])) = some j := by
  rw [Json.read, String.toList_ofList]
  exact h .initial ⟨[], .finished j⟩ [] rfl rfl ends_nil

/-- **Reading a value that was written on one line gives it back.** -/
theorem read_compact {j : Json} (h : j.Plain) : read j.compact = some j := (writes_write j h).read

/-- **Reading an indented value gives it back.** -/
theorem read_pretty {j : Json} (h : j.Plain) : read j.pretty = some j := (writes_writeAt 0 j h).read

end Lowering.Json
