import LineCoach.Proofs.Text.Encoding

/-!
# What is read from bytes

Bytes are read one character after the other, and what is read at the front is a character with
just its encoding in front, or the replacement. So the encoding of a text is read as the text, and a
text without replacements is read from its encoding only. A slash belongs to no longer character and
cuts short the one before it: bytes are read on each side of a slash as if the other side were not
there, and a slash is read from a slash only.
-/

namespace LineCoach.Text

/-- No byte is counted twice. -/
theorem countWithin_le_length (ranges : List (Nat × Nat)) (bytes : List UInt8) :
    countWithin ranges bytes ≤ bytes.length := by
  fun_induction countWithin ranges bytes with
  | case1 least greatest ranges byte bytes hwithin ih => exact Nat.succ_le_succ ih
  | case2 => exact Nat.zero_le _
  | case3 => exact Nat.zero_le _

/-- Bytes that stand in the ranges are counted, whatever comes after them. -/
theorem countWithin_append {later : List UInt8} {ranges : List (Nat × Nat)}
    (h : List.Forall₂ Within later ranges) (rest : List UInt8) :
    countWithin ranges (later ++ rest) = ranges.length := by
  induction h with
  | nil => cases rest <;> rfl
  | cons hwithin _ ih =>
    rw [List.cons_append, countWithin, if_pos ⟨hwithin.1, hwithin.2⟩, ih, List.length_cons]

/-- If as many bytes are counted as there are ranges, the bytes at the front stand in them. -/
theorem within_take_of_countWithin {ranges : List (Nat × Nat)} {bytes : List UInt8}
    (h : countWithin ranges bytes = ranges.length) :
    List.Forall₂ Within (bytes.take ranges.length) ranges := by
  fun_induction countWithin ranges bytes with
  | case1 least greatest ranges byte bytes hwithin ih =>
    exact .cons hwithin (ih (Nat.succ.inj h))
  | case2 => cases h
  | case3 ranges bytes hmore =>
    cases ranges with
    | nil => exact .nil
    | cons range ranges => cases h

/-- No later byte of a character is ASCII. -/
theorem le_of_laterRanges?_eq_some {first : Nat} {ranges : List (Nat × Nat)}
    (h : laterRanges? first = some ranges) : ∀ range ∈ ranges, 0x80 ≤ range.1 := by
  have hsecond : 0x80 ≤ (secondRange first).1 := by
    unfold secondRange
    repeat' split
    all_goals decide
  unfold laterRanges? at h
  repeat' split at h
  all_goals
    cases h
  all_goals simp [hsecond]

/-- A byte that is less than all bytes in the ranges ends the count. -/
theorem countWithin_append_cons {ranges : List (Nat × Nat)} {byte : UInt8}
    (h : ∀ range ∈ ranges, byte.toNat < range.1) (front back : List UInt8) :
    countWithin ranges (front ++ byte :: back) = countWithin ranges front := by
  induction ranges generalizing front with
  | nil => cases front <;> rfl
  | cons range ranges ih =>
    rw [List.forall_mem_cons] at h
    cases front with
    | nil =>
      rw [List.nil_append, countWithin, if_neg (by omega)]
      rfl
    | cons other front =>
      rw [List.cons_append, countWithin, countWithin, ih h.2]

/-- The bytes of a character are read as this character. -/
theorem readFront_utf8EncodeChar (c : Char) :
    ∃ first later, String.utf8EncodeChar c = first :: later ∧
      ∀ rest, readFront first (later ++ rest) = (c, later.length) := by
  obtain ⟨first, later, hencode, hcharacter⟩ := isCharacter_utf8EncodeChar c
  refine ⟨first, later, hencode, fun rest => ?_⟩
  have hpoint : Char.ofNat (codePoint first later) = c :=
    utf8EncodeChar_injective (hcharacter.utf8EncodeChar_codePoint.trans hencode.symm)
  obtain ⟨ranges, hranges, hwithin⟩ := hcharacter.exists_ranges
  simp only [readFront, hranges, countWithin_append hwithin, if_true, ← hwithin.length_eq,
    List.take_left, hpoint]

/-- What is not read as the replacement is read from the bytes that encode it. -/
theorem utf8EncodeChar_readFront {first : UInt8} {rest : List UInt8}
    (h : (readFront first rest).1 ≠ replacement) :
    String.utf8EncodeChar (readFront first rest).1 =
      first :: rest.take (readFront first rest).2 := by
  rw [readFront] at h ⊢
  split at h
  · exact absurd rfl h
  · next ranges hranges =>
    simp only at h ⊢
    split at h
    · next hcount =>
      rw [if_pos hcount]
      have hwithin := within_take_of_countWithin hcount
      rw [← hcount] at hwithin
      exact (isCharacter_of_within hranges hwithin).utf8EncodeChar_codePoint
    · exact absurd rfl h

/-- A character takes up no more bytes than there are. -/
theorem readFront_snd_le_length (first : UInt8) (rest : List UInt8) :
    (readFront first rest).2 ≤ rest.length := by
  rw [readFront]
  split
  · exact Nat.zero_le _
  · next ranges _ =>
    have hcount := countWithin_le_length ranges rest
    simp only
    split <;> exact hcount

/-- A slash and what comes behind it belong to no character that begins in front of it. -/
theorem readFront_append_slash (first : UInt8) (front back : List UInt8) :
    readFront first (front ++ 0x2F :: back) = readFront first front := by
  rw [readFront, readFront]
  cases hranges : laterRanges? first.toNat with
  | none => rfl
  | some ranges =>
    have hslash : ∀ range ∈ ranges, (0x2F : UInt8).toNat < range.1 := fun range hrange =>
      Nat.lt_of_lt_of_le (by decide) (le_of_laterRanges?_eq_some hranges range hrange)
    simp only [countWithin_append_cons hslash,
      List.take_append_of_le_length (countWithin_le_length ranges front)]

/-- Reading after some bytes is reading what they leave. -/
theorem lossyAfter_eq (skip : Nat) (bytes : List UInt8) :
    lossyAfter skip bytes = lossy (bytes.drop skip) := by
  induction bytes generalizing skip with
  | nil => rw [List.drop_nil, lossy, lossyAfter, lossyAfter]
  | cons byte rest ih =>
    cases skip with
    | zero => rfl
    | succ skip => rw [lossyAfter, ih, List.drop_succ_cons]

/-- Reading goes on behind the character at the front. -/
theorem lossy_cons (first : UInt8) (rest : List UInt8) :
    lossy (first :: rest) =
      (readFront first rest).1 :: lossy (rest.drop (readFront first rest).2) := by
  rw [lossy, lossyAfter, lossyAfter_eq]

theorem lossy_nil : lossy [] = [] := by
  rw [lossy, lossyAfter]

/-- Bytes are read one character after the other. -/
@[elab_as_elim]
theorem reading_induction {motive : List UInt8 → Prop} (nil : motive [])
    (more : ∀ first rest, motive (rest.drop (readFront first rest).2) → motive (first :: rest))
    (bytes : List UInt8) : motive bytes := by
  suffices h : ∀ skip, motive (bytes.drop skip) from h 0
  induction bytes with
  | nil =>
    intro skip
    rw [List.drop_nil]
    exact nil
  | cons first rest ih =>
    intro skip
    cases skip with
    | zero => exact more first rest (ih _)
    | succ skip => exact ih skip

/-- The encoding of a text is read as this text, whatever comes after it. -/
theorem lossy_encode_append (text : List Char) (rest : List UInt8) :
    lossy (encode text ++ rest) = text ++ lossy rest := by
  induction text with
  | nil => rfl
  | cons c text ih =>
    obtain ⟨first, later, hencode, hread⟩ := readFront_utf8EncodeChar c
    have hbytes : encode (c :: text) ++ rest = first :: (later ++ (encode text ++ rest)) := by
      rw [encode, List.flatMap_cons, hencode, List.append_assoc, List.cons_append]
      rfl
    rw [hbytes, lossy_cons, hread, List.drop_left, ih, List.cons_append]

theorem lossy_encode (text : List Char) : lossy (encode text) = text := by
  have h := lossy_encode_append text []
  rwa [List.append_nil, lossy_nil, List.append_nil] at h

/-- A text without replacements is read from its own encoding only. -/
theorem encode_lossy {bytes : List UInt8} (h : replacement ∉ lossy bytes) :
    encode (lossy bytes) = bytes := by
  induction bytes using reading_induction with
  | nil => rfl
  | more first rest ih =>
    rw [lossy_cons, List.mem_cons, not_or] at h
    rw [lossy_cons, encode, List.flatMap_cons, utf8EncodeChar_readFront (Ne.symm h.1)]
    change _ ++ encode _ = _
    rw [ih h.2, List.cons_append, List.take_append_drop]

/-- Bytes are read as a text without replacements exactly if they are its encoding. -/
theorem lossy_eq_iff {bytes : List UInt8} {text : List Char} (h : replacement ∉ text) :
    lossy bytes = text ↔ bytes = encode text := by
  constructor
  · rintro rfl
    exact (encode_lossy h).symm
  · rintro rfl
    exact lossy_encode text

/-- Bytes are read on each side of a slash by themselves. -/
theorem lossy_slash (front back : List UInt8) :
    lossy (front ++ 0x2F :: back) = lossy front ++ '/' :: lossy back := by
  induction front using reading_induction with
  | nil => rfl
  | more first rest ih =>
    rw [List.cons_append, lossy_cons, lossy_cons, readFront_append_slash,
      List.drop_append_of_le_length (readFront_snd_le_length first rest), ih, List.cons_append]

/-- A character that breaks off at a slash is one replacement, and so is a byte that begins none. -/
example : lossy [0xE2, 0x82, 0x2F, 0xFF, 0x61] = ['\uFFFD', '/', '\uFFFD', 'a'] := by decide

/-- A slash is read from a slash only. -/
theorem slash_mem_of_mem_lossy {bytes : List UInt8} (h : '/' ∈ lossy bytes) : 0x2F ∈ bytes := by
  induction bytes using reading_induction with
  | nil => cases h
  | more first rest ih =>
    rw [lossy_cons] at h
    rcases List.mem_cons.1 h with hfirst | hrest
    · have hclean : (readFront first rest).1 ≠ replacement := hfirst ▸ by decide
      have hencode := utf8EncodeChar_readFront hclean
      have hslash : String.utf8EncodeChar '/' = [0x2F] := by decide
      rw [← hfirst, hslash] at hencode
      rw [← (List.cons.inj hencode).1]
      exact List.mem_cons_self
    · exact List.mem_cons_of_mem _ (List.mem_of_mem_drop (ih hrest))

end LineCoach.Text
