import HandlerLint.Text.Utf8

/-!
# The order of texts is the order of their bytes

Texts are compared character by character, and file names are compared byte by byte.  Both
orders agree.  Of two different characters the smaller one has the smaller byte at the
first place where their bytes differ, and there is such a place before either ends: the
first byte of a character tells how many there are, and more bytes stand for greater
characters.
-/

namespace HandlerLint.Text

theorem toList_loop
    (bytes : ByteArray) (index : Nat) (before : List UInt8) :
    ByteArray.toList.loop bytes index before = before.reverse ++ bytes.data.toList.drop index := by
  fun_induction ByteArray.toList.loop bytes index before with
  | case1 index before hindex ih =>
      have hlength : index < bytes.data.toList.length := by simpa using hindex
      rw [ih, List.drop_eq_getElem_cons hlength]
      simp [ByteArray.get!, hindex]
  | case2 index before hindex =>
      rw [List.drop_eq_nil_of_le (by simpa using Nat.le_of_not_lt hindex), List.append_nil]

theorem encode_eq_flatMap
    (text : String) :
    encode text = text.toList.flatMap String.utf8EncodeChar := by
  have hlist : encode text = text.toByteArray.data.toList := by
    rw [encode, String.toUTF8_eq_toByteArray, ByteArray.toList, toList_loop]
    simp
  rw [hlist, ← String.utf8Encode_toList, List.utf8Encode, List.data_toByteArray]

/-! ## Writing numbers in order -/

/-- A way of writing numbers below a bound: the bytes of the smaller of two numbers come
first, whatever follows them. -/
def WritesInOrder (bound : Nat) (write : Nat → List UInt8) : Prop :=
  ∀ small large, small < large → large < bound →
    ∀ rest more, write small ++ rest < write large ++ more

theorem ofNat_lt_ofNat
    {small large : Nat} (h : small < large) (hlarge : large < 256) :
    UInt8.ofNat small < UInt8.ofNat large := by
  rw [UInt8.lt_iff_toNat_lt, UInt8.toNat_ofNat', UInt8.toNat_ofNat',
    Nat.mod_eq_of_lt (Nat.lt_trans h hlarge), Nat.mod_eq_of_lt hlarge]
  exact h

theorem cons_ofNat_lt_cons_ofNat
    {small large : Nat} (h : small < large) (hlarge : large < 256) (rest more : List UInt8) :
    UInt8.ofNat small :: rest < UInt8.ofNat large :: more :=
  List.cons_lt_cons_iff.mpr (.inl (ofNat_lt_ofNat h hlarge))

/-- A byte that leads, counted from a mark. -/
def leading (mark : Nat) (number : Nat) : List UInt8 :=
  [UInt8.ofNat (number + mark)]

/-- A byte for the last six bits, after a way of writing the others. -/
def continued (write : Nat → List UInt8) (number : Nat) : List UInt8 :=
  write (number / 64) ++ [UInt8.ofNat (number % 64 + 0x80)]

theorem writesInOrder_leading
    (bound mark : Nat) (h : bound + mark ≤ 256) :
    WritesInOrder bound (leading mark) := by
  intro small large hlt hlarge rest more
  exact cons_ofNat_lt_cons_ofNat (by omega) (by omega) rest more

theorem WritesInOrder.continued
    {bound : Nat} {write : Nat → List UInt8} (h : WritesInOrder bound write) :
    WritesInOrder (bound * 64) (continued write) := by
  intro small large hlt hlarge rest more
  rw [Text.continued, Text.continued, List.append_assoc, List.append_assoc]
  rcases Nat.lt_or_ge (small / 64) (large / 64) with hfront | hfront
  · exact h _ _ hfront (by omega) _ _
  · -- The leading bits agree, so the last six decide.
    have hsame : small / 64 = large / 64 := by omega
    rw [hsame]
    exact List.append_left_lt (cons_ofNat_lt_cons_ofNat (by omega) (by omega) _ _)

/-! ## Characters -/

/-- How the characters of each size are written. -/
def writeTwo : Nat → List UInt8 :=
  continued (leading 0xC0)

@[inherit_doc writeTwo]
def writeThree : Nat → List UInt8 :=
  continued (continued (leading 0xE0))

@[inherit_doc writeTwo]
def writeFour : Nat → List UInt8 :=
  continued (continued (continued (leading 0xF0)))

theorem writesInOrder_one :
    WritesInOrder 0x80 (leading 0) :=
  writesInOrder_leading 0x80 0 (by decide)

theorem writesInOrder_two :
    WritesInOrder 0x800 writeTwo :=
  (writesInOrder_leading 0x20 0xC0 (by decide)).continued

theorem writesInOrder_three :
    WritesInOrder 0x10000 writeThree :=
  (writesInOrder_leading 0x10 0xE0 (by decide)).continued.continued

theorem writesInOrder_four :
    WritesInOrder 0x200000 writeFour :=
  (writesInOrder_leading 0x8 0xF0 (by decide)).continued.continued.continued

/-- The bytes of a character, by its size. -/
theorem utf8EncodeChar_cases
    (c : Char) :
    (c.toNat < 0x80 ∧ String.utf8EncodeChar c = leading 0 c.toNat) ∨
      (0x80 ≤ c.toNat ∧ c.toNat < 0x800 ∧ String.utf8EncodeChar c = writeTwo c.toNat) ∨
      (0x800 ≤ c.toNat ∧ c.toNat < 0x10000 ∧ String.utf8EncodeChar c = writeThree c.toNat) ∨
      (0x10000 ≤ c.toNat ∧ c.toNat < 0x110000 ∧ String.utf8EncodeChar c = writeFour c.toNat) := by
  have hmax : c.toNat < 0x110000 := by
    rcases c.valid with hsmall | hlarge
    · exact Nat.lt_trans hsmall (by decide)
    · exact hlarge.2
  have hchar : c.val.toNat = c.toNat := rfl
  rw [String.utf8EncodeChar]
  simp only [hchar]
  generalize c.toNat = v at hmax ⊢
  split
  · exact .inl ⟨by omega, rfl⟩
  split
  · refine .inr (.inl ⟨by omega, by omega, ?_⟩)
    have hfront : v / 64 % 32 = v / 64 := by omega
    rw [hfront]
    rfl
  split
  · refine .inr (.inr (.inl ⟨by omega, by omega, ?_⟩))
    have hfront : v / 4096 % 16 = v / 64 / 64 := by omega
    rw [hfront]
    rfl
  · refine .inr (.inr (.inr ⟨by omega, hmax, ?_⟩))
    have hfront : v / 262144 % 8 = v / 64 / 64 / 64 := by omega
    have hsecond : v / 4096 = v / 64 / 64 := by omega
    rw [hfront, hsecond]
    rfl

/-- The bytes of a smaller character come first, whatever follows them. -/
theorem utf8EncodeChar_append_lt
    {first second : Char} (h : first < second) (rest more : List UInt8) :
    String.utf8EncodeChar first ++ rest < String.utf8EncodeChar second ++ more := by
  have hlt : first.toNat < second.toNat := h
  rcases utf8EncodeChar_cases first with
      ⟨hfirst, hbytes⟩ | ⟨hlow, hfirst, hbytes⟩ | ⟨hlow, hfirst, hbytes⟩ |
        ⟨hlow, hfirst, hbytes⟩ <;>
    rcases utf8EncodeChar_cases second with
      ⟨hsecond, hmore⟩ | ⟨hleast, hsecond, hmore⟩ | ⟨hleast, hsecond, hmore⟩ |
        ⟨hleast, hsecond, hmore⟩ <;>
    rw [hbytes, hmore]
  -- Two characters of one size are told apart by their bits, others by the first byte.
  case inl.inl => exact writesInOrder_one _ _ hlt hsecond rest more
  case inr.inl.inr.inl => exact writesInOrder_two _ _ hlt hsecond rest more
  case inr.inr.inl.inr.inr.inl => exact writesInOrder_three _ _ hlt hsecond rest more
  case inr.inr.inr.inr.inr.inr => exact writesInOrder_four _ _ hlt (by omega) rest more
  all_goals first
    | omega
    | exact cons_ofNat_lt_cons_ofNat (by omega) (by omega) _ _

/-- Of two texts the smaller one has the smaller bytes. -/
theorem encode_lt_encode
    {first second : String} (h : first < second) :
    encode first < encode second := by
  rw [encode_eq_flatMap, encode_eq_flatMap]
  have hlt : List.Lex (· < ·) first.toList second.toList := String.lt_iff.mp h
  generalize first.toList = chars at hlt ⊢
  generalize second.toList = others at hlt ⊢
  induction hlt with
  | @nil c rest =>
      have hne : String.utf8EncodeChar c ≠ [] := by simp
      obtain ⟨byte, bytes, hbytes⟩ := List.exists_cons_of_ne_nil hne
      rw [List.flatMap_nil, List.flatMap_cons, hbytes]
      exact List.nil_lt_cons _ _
  | cons _ ih =>
      rw [List.flatMap_cons, List.flatMap_cons]
      exact List.append_left_lt ih
  | rel hlt =>
      rw [List.flatMap_cons, List.flatMap_cons]
      exact utf8EncodeChar_append_lt hlt _ _

end HandlerLint.Text
