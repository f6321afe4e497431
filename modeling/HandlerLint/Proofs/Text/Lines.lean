import Mathlib.Algebra.Ring.Nat
import Mathlib.Data.List.Basic
import HandlerLint.Text.Split
import HandlerLint.Text.Utf8

/-!
# Lines of bytes and lines of text

A source is bytes, and its lines can be counted in two ways: in the bytes, one line per
line feed, or in the text that the bytes are read as.  Both ways agree, whatever the
bytes are.  No byte below 0x80 is ever swallowed by a character that is under way or by a
broken stretch, and no such byte comes out of a longer character, so the line feeds and
carriage returns of the text are exactly those of the bytes.
-/

namespace HandlerLint.Text

/-! ## Chunks -/

/-- A chunk is a single byte below 0x80, or one broken byte, or a byte with continuation
bytes whose value is at least 0x80. -/
theorem readChunk_cases
    (byte : UInt8) :
    (byte < 0x80 ∧ ∀ rest, readChunk byte rest = (some (Char.ofNat byte.toNat), rest)) ∨
      (∀ rest, readChunk byte rest = (none, rest)) ∨
      ∃ (count bits : Nat) (low high : UInt8),
        0x80 ≤ low ∧ 0x80 ≤ (bits * 64 + (low.toNat - 0x80)) * 64 ^ count ∧
          ∀ rest, readChunk byte rest = readTail (count + 1) low high bits rest := by
  by_cases h80 : byte.toNat < 0x80
  · exact Or.inl ⟨h80, fun rest => if_pos h80⟩
  right
  by_cases hC2 : byte.toNat < 0xC2
  · exact Or.inl fun rest => by simp only [readChunk, h80, hC2, if_true, if_false]
  by_cases hE0 : byte.toNat < 0xE0
  · refine Or.inr ⟨0, byte.toNat - 0xC0, 0x80, 0xBF, by decide, ?_, fun rest => ?_⟩
    · simp only [Nat.pow_zero, Nat.mul_one]
      omega
    · simp only [readChunk, h80, hC2, hE0, if_true, if_false]
  by_cases hisE0 : byte.toNat = 0xE0
  · refine Or.inr ⟨1, 0, 0xA0, 0xBF, by decide, by decide, fun rest => ?_⟩
    simp [readChunk, hisE0]
  by_cases hisED : byte.toNat = 0xED
  · refine Or.inr ⟨1, 13, 0x80, 0x9F, by decide, by decide, fun rest => ?_⟩
    simp [readChunk, hisED]
  by_cases hF0 : byte.toNat < 0xF0
  · refine Or.inr ⟨1, byte.toNat - 0xE0, 0x80, 0xBF, by decide, ?_, fun rest => ?_⟩
    · simp only [Nat.pow_one]
      omega
    · simp only [readChunk, h80, hC2, hE0, hisE0, hisED, hF0, if_true, if_false]
  by_cases hisF0 : byte.toNat = 0xF0
  · refine Or.inr ⟨2, 0, 0x90, 0xBF, by decide, by decide, fun rest => ?_⟩
    simp [readChunk, hisF0]
  by_cases hF4 : byte.toNat < 0xF4
  · refine Or.inr ⟨2, byte.toNat - 0xF0, 0x80, 0xBF, by decide, ?_, fun rest => ?_⟩
    · simp only [Nat.reducePow]
      omega
    · simp only [readChunk, h80, hC2, hE0, hisE0, hisED, hF0, hisF0, hF4, if_true, if_false]
  by_cases hisF4 : byte.toNat = 0xF4
  · refine Or.inr ⟨2, 4, 0x80, 0x8F, by decide, by decide, fun rest => ?_⟩
    simp [readChunk, hisF4]
  · refine Or.inl fun rest => ?_
    simp only [readChunk, h80, hC2, hE0, hisE0, hisED, hF0, hisF0, hF4, hisF4, if_false]

/-- A byte below 0x80 ends what is read before it. -/
theorem readTail_append
    {count bits : Nat} {low high byte : UInt8} {bytes rest : List UInt8}
    (hlow : 0x80 ≤ low) (hbyte : byte < 0x80) :
    readTail count low high bits (bytes ++ byte :: rest) =
      ((readTail count low high bits bytes).1,
        (readTail count low high bits bytes).2 ++ byte :: rest) := by
  induction bytes generalizing count low high bits with
  | nil =>
      cases count with
      | zero => rfl
      | succ count =>
          have hout : ¬(low ≤ byte ∧ byte ≤ high) := by
            intro hin
            exact absurd (UInt8.le_trans hlow hin.1) (UInt8.not_le.mpr hbyte)
          have hstop : readTail (count + 1) low high bits (byte :: rest) = (none, byte :: rest) :=
            if_neg hout
          rw [List.nil_append, hstop]
          rfl
  | cons first bytes ih =>
      cases count with
      | zero => rfl
      | succ count =>
          rw [List.cons_append, readTail, readTail]
          split
          · exact ih (by decide)
          · rfl

theorem readChunk_append
    {first byte : UInt8} {bytes rest : List UInt8} (hbyte : byte < 0x80) :
    readChunk first (bytes ++ byte :: rest) =
      ((readChunk first bytes).1, (readChunk first bytes).2 ++ byte :: rest) := by
  rcases readChunk_cases first with ⟨_, h⟩ | h | ⟨count, bits, low, high, hlow, _, h⟩
  · rw [h, h]
  · rw [h, h]
  · rw [h, h]
    exact readTail_append hlow hbyte

theorem readTail_suffix
    (count bits : Nat) (low high : UInt8) (bytes : List UInt8) :
    (readTail count low high bits bytes).2 <:+ bytes := by
  induction bytes generalizing count low high bits with
  | nil => cases count <;> exact List.suffix_rfl
  | cons byte bytes ih =>
      cases count with
      | zero => exact List.suffix_rfl
      | succ count =>
          rw [readTail]
          split
          · exact (ih ..).trans (List.suffix_cons byte bytes)
          · exact List.suffix_rfl

theorem readChunk_suffix
    (byte : UInt8) (rest : List UInt8) :
    (readChunk byte rest).2 <:+ rest := by
  rcases readChunk_cases byte with ⟨_, h⟩ | h | ⟨count, bits, low, high, _, _, h⟩
  · simp [h]
  · simp [h]
  · rw [h]
    exact readTail_suffix ..

/-- The value of a character with continuation bytes. -/
theorem exists_value_of_readTail
    {count bits : Nat} {low high : UInt8} {bytes : List UInt8} {c : Char}
    (h : (readTail (count + 1) low high bits bytes).1 = some c) :
    ∃ value, (bits * 64 + (low.toNat - 0x80)) * 64 ^ count ≤ value ∧
      c = Char.ofNat value := by
  induction count generalizing low high bits bytes with
  | zero =>
      cases bytes with
      | nil => cases h
      | cons byte bytes =>
          rw [readTail] at h
          split at h
          · next hin =>
              have hle : low.toNat ≤ byte.toNat := hin.1
              refine ⟨addBits bits byte, ?_, (Option.some.inj h).symm⟩
              unfold addBits
              omega
          · cases h
  | succ count ih =>
      cases bytes with
      | nil => cases h
      | cons byte bytes =>
          rw [readTail] at h
          split at h
          · next hin =>
              have hle : low.toNat ≤ byte.toNat := hin.1
              obtain ⟨value, hvalue, hc⟩ := ih h
              refine ⟨value, ?_, hc⟩
              have hbits : bits * 64 + (low.toNat - 0x80) ≤ addBits bits byte := by
                unfold addBits
                omega
              have hlow : UInt8.toNat 0x80 - 0x80 = 0 := rfl
              rw [hlow, Nat.add_zero, Nat.mul_assoc, ← Nat.pow_succ'] at hvalue
              exact Nat.le_trans (Nat.mul_le_mul_right _ hbits) hvalue
          · cases h

/-! ## Bytes below 0x80 in text -/

theorem chunks_append
    {byte : UInt8} (hbyte : byte < 0x80) (bytes rest : List UInt8) :
    chunks (bytes ++ byte :: rest) =
      chunks bytes ++ some (Char.ofNat byte.toNat) :: chunks rest := by
  fun_induction chunks bytes with
  | case1 =>
      have hchunk : readChunk byte rest = (some (Char.ofNat byte.toNat), rest) := if_pos hbyte
      rw [List.nil_append, chunks, hchunk]
      rfl
  | case2 first bytes ih =>
      rw [List.cons_append, chunks, readChunk_append hbyte, ih]
      rfl

/-- Text before and after a byte below 0x80 is read on its own. -/
theorem decodeLossy_append
    {byte : UInt8} (hbyte : byte < 0x80) (bytes rest : List UInt8) :
    decodeLossy (bytes ++ byte :: rest) =
      decodeLossy bytes ++ Char.ofNat byte.toNat :: decodeLossy rest := by
  unfold decodeLossy
  rw [chunks_append hbyte, List.map_append, List.map_cons]
  rfl

theorem decodeLossy_eq_nil_iff
    {bytes : List UInt8} :
    decodeLossy bytes = [] ↔ bytes = [] := by
  cases bytes with
  | nil => simp [decodeLossy, chunks]
  | cons byte bytes => simp [decodeLossy, chunks]

/-- The character of a chunk, if it is below 0x80 and not zero, is that of its only byte. -/
theorem eq_of_readChunk
    {byte marker : UInt8} {rest : List UInt8} (hpos : 0 < marker) (hmarker : marker < 0x80)
    (h : (readChunk byte rest).1.getD replacementChar = Char.ofNat marker.toNat) :
    byte = marker := by
  have hpos : 0 < marker.toNat := hpos
  have hmarker : marker.toNat < 0x80 := hmarker
  have hvalue : ∀ value, (Char.ofNat value).toNat = value ∨ (Char.ofNat value).toNat = 0 := by
    intro value
    unfold Char.ofNat
    by_cases hvalid : value.isValidChar
    · rw [dif_pos hvalid]
      exact Or.inl rfl
    · rw [dif_neg hvalid]
      exact Or.inr rfl
  have hsmall : ∀ value, value < 0x80 → (Char.ofNat value).toNat = value := by
    intro value hlt
    unfold Char.ofNat
    rw [dif_pos (Or.inl (by omega))]
    rfl
  have hnat := congrArg Char.toNat h
  rw [hsmall _ hmarker] at hnat
  rcases readChunk_cases byte with ⟨hbyte, hchunk⟩ | hchunk | ⟨_, _, _, _, _, hlarge, hchunk⟩
  · have hbyte : byte.toNat < 0x80 := hbyte
    rw [hchunk, Option.getD_some, hsmall _ hbyte] at hnat
    exact UInt8.toNat_inj.mp hnat
  · rw [hchunk, Option.getD_none] at hnat
    have hreplacement : replacementChar.toNat = 0xFFFD := by decide
    omega
  · rw [hchunk] at hnat
    cases hread : (readTail _ _ _ _ rest).1 with
    | none =>
        rw [hread, Option.getD_none] at hnat
        have hreplacement : replacementChar.toNat = 0xFFFD := by decide
        omega
    | some c =>
        rw [hread, Option.getD_some] at hnat
        obtain ⟨value, hle, rfl⟩ := exists_value_of_readTail hread
        rcases hvalue value with hsame | hzero
        · omega
        · omega

/-- A character below 0x80 stands in the text exactly if its byte stands in the source. -/
theorem mem_decodeLossy_iff
    {marker : UInt8} (hpos : 0 < marker) (hmarker : marker < 0x80) {bytes : List UInt8} :
    Char.ofNat marker.toNat ∈ decodeLossy bytes ↔ marker ∈ bytes := by
  constructor
  · intro h
    unfold decodeLossy at h
    fun_induction chunks bytes with
    | case1 => cases h
    | case2 byte rest ih =>
        rw [List.map_cons, List.mem_cons] at h
        rcases h with hfirst | hrest
        · rw [eq_of_readChunk hpos hmarker hfirst.symm]
          exact List.mem_cons_self
        · exact List.mem_cons_of_mem _ ((readChunk_suffix byte rest).subset (ih hrest))
  · intro h
    obtain ⟨before, after, rfl⟩ := List.append_of_mem h
    rw [decodeLossy_append hmarker]
    exact List.mem_append_right _ List.mem_cons_self

/-- The text ends in a character below 0x80 exactly if the source ends in its byte. -/
theorem getLast?_decodeLossy_iff
    {marker : UInt8} (hpos : 0 < marker) (hmarker : marker < 0x80) {bytes : List UInt8} :
    (decodeLossy bytes).getLast? = some (Char.ofNat marker.toNat) ↔
      bytes.getLast? = some marker := by
  constructor
  · intro h
    have hmem := (mem_decodeLossy_iff hpos hmarker).mp (List.mem_of_getLast? h)
    -- Nothing can stand after the last occurrence of the byte.
    obtain ⟨after, before, hsplit, hlast⟩ :=
      List.eq_append_cons_of_mem (List.mem_reverse.mpr hmem)
    have hbytes : bytes = before.reverse ++ marker :: after.reverse := by
      have hreverse := congrArg List.reverse hsplit
      simpa using hreverse
    cases hafter : after.reverse with
    | nil =>
        rw [hbytes, hafter]
        exact List.getLast?_concat
    | cons next others =>
        rw [hbytes, decodeLossy_append hmarker, List.getLast?_append_of_ne_nil _ (by simp),
          List.getLast?_cons_of_ne_nil (by rw [Ne, decodeLossy_eq_nil_iff, hafter]; simp)] at h
        have hagain := (mem_decodeLossy_iff hpos hmarker).mp (List.mem_of_getLast? h)
        exact absurd (List.mem_reverse.mp hagain) hlast
  · intro h
    obtain ⟨before, rfl⟩ := List.getLast?_eq_some_iff.mp h
    rw [decodeLossy_append hmarker, decodeLossy_eq_nil_iff.mpr rfl]
    exact List.getLast?_concat

/-! ## Lines -/

theorem splitOn_eq
    (separator : Char) (text : List Char) :
    splitOn separator text = List.splitOn separator text := by
  induction text with
  | nil => rfl
  | cons c text ih =>
      rw [splitOn_cons, List.splitOn_cons_eq_if_modifyHead, ← ih]
      by_cases hc : c = separator
      · rw [if_pos hc, if_pos (beq_iff_eq.mpr hc)]
      · rw [if_neg hc, if_neg (by simpa using hc)]
        cases hpieces : splitOn separator text with
        | nil => exact absurd hpieces (splitOn_ne_nil separator text)
        | cons piece pieces => rfl

/-- The text between line feeds is that of the bytes between line feeds. -/
theorem splitOn_decodeLossy
    (bytes : List UInt8) :
    splitOn '\n' (decodeLossy bytes) = (bytes.splitOn 0x0A).map decodeLossy := by
  rw [splitOn_eq]
  -- A line feed cuts bytes and text at the same place, and what follows it is shorter.
  induction hlength : bytes.length using Nat.strongRecOn generalizing bytes with
  | _ length ih =>
      by_cases hmem : (0x0A : UInt8) ∈ bytes
      · obtain ⟨before, after, rfl, hbefore⟩ := List.eq_append_cons_of_mem hmem
        have hfree : '\n' ∉ decodeLossy before := fun h =>
          hbefore ((mem_decodeLossy_iff (by decide) (by decide)).mp h)
        have hshorter : after.length < length := by
          rw [← hlength, List.length_append, List.length_cons]
          omega
        have htext :
            decodeLossy (before ++ 0x0A :: after) =
              decodeLossy before ++ '\n' :: decodeLossy after :=
          decodeLossy_append (by decide) before after
        rw [htext, List.splitOn_append_cons_self_of_not_mem hfree,
          List.splitOn_append_cons_self_of_not_mem hbefore, List.map_cons,
          ih _ hshorter after rfl]
      · have hfree : '\n' ∉ decodeLossy bytes := fun h =>
          hmem ((mem_decodeLossy_iff (by decide) (by decide)).mp h)
        rw [List.splitOn_eq_singleton hfree, List.splitOn_eq_singleton hmem]
        rfl

/-- The bytes of a line without the one carriage return that precedes its line feed. -/
def stripReturn (line : List UInt8) : List UInt8 :=
  if line.getLast? = some 0x0D then line.dropLast else line

/-- The lines of a source: the bytes ahead of each line feed, less a carriage return at
their end, and what is left after the last line feed, unless nothing is left. -/
def sourceLines (bytes : List UInt8) : List (List UInt8) :=
  (bytes.splitOn 0x0A).dropLast.map stripReturn ++
    (bytes.splitOn 0x0A).getLast?.toList.filter (! ·.isEmpty)

theorem dropReturn_decodeLossy
    (line : List UInt8) :
    dropReturn (decodeLossy line) = decodeLossy (stripReturn line) := by
  unfold dropReturn stripReturn
  have hlast :
      (decodeLossy line).getLast? = some '\r' ↔ line.getLast? = some 0x0D :=
    @getLast?_decodeLossy_iff 0x0D (by decide) (by decide) line
  by_cases h : line.getLast? = some 0x0D
  · rw [if_pos (hlast.mpr h), if_pos h]
    obtain ⟨before, rfl⟩ := List.getLast?_eq_some_iff.mp h
    rw [decodeLossy_append (by decide), decodeLossy_eq_nil_iff.mpr rfl, List.dropLast_concat,
      List.dropLast_concat]
  · rw [if_neg (mt hlast.mp h), if_neg h]

theorem linesOfPieces_eq
    (pieces : List (List Char)) :
    linesOfPieces pieces =
      pieces.dropLast.map dropReturn ++ pieces.getLast?.toList.filter (! ·.isEmpty) := by
  fun_induction linesOfPieces pieces with
  | case1 => rfl
  | case2 last hempty => simp [hempty]
  | case3 last hne => simp [hne]
  | case4 piece pieces hne ih =>
      cases pieces with
      | nil => exact absurd rfl hne
      | cons second rest =>
          rw [ih, List.dropLast_cons_cons, List.map_cons, List.getLast?_cons_cons,
            List.cons_append]

/-- The lines of the text of a source are the texts of its lines. -/
theorem lines_decodeLossy
    (bytes : List UInt8) :
    lines (decodeLossy bytes) = (sourceLines bytes).map decodeLossy := by
  have hreturn : dropReturn ∘ decodeLossy = decodeLossy ∘ stripReturn :=
    funext dropReturn_decodeLossy
  have hempty :
      ((fun line => ! List.isEmpty line) ∘ decodeLossy) = fun line => ! line.isEmpty := by
    funext line
    rw [Function.comp_apply, Bool.eq_iff_iff]
    simp [decodeLossy_eq_nil_iff]
  unfold lines sourceLines
  rw [splitOn_decodeLossy, linesOfPieces_eq, ← List.map_dropLast, List.map_map, hreturn,
    List.getLast?_map, Option.toList_map, List.filter_map, hempty, List.map_append,
    List.map_map]

/-! ## Rows -/

/-- A stretch of bytes that starts after exactly so many line feeds and goes up to the
next line feed or to the end. -/
def StandsOnRow (bytes : List UInt8) (row : Nat) (segment : List UInt8) : Prop :=
  ∃ before after, bytes = before ++ segment ++ after ∧
    before.count 0x0A = row ∧ (before = [] ∨ before.getLast? = some 0x0A) ∧
    0x0A ∉ segment ∧ (after = [] ∨ after.head? = some 0x0A)

theorem length_splitOn
    (bytes : List UInt8) :
    (bytes.splitOn 0x0A).length = bytes.count 0x0A + 1 := by
  induction bytes with
  | nil => rfl
  | cons byte bytes ih =>
      rw [List.splitOn_cons_eq_if_modifyHead, List.count_cons]
      split
      · rw [List.length_cons, ih]
      · rw [List.length_modifyHead, ih]

theorem standsOnRow_of_getElem?
    {bytes segment : List UInt8} {row : Nat}
    (h : (bytes.splitOn 0x0A)[row]? = some segment) :
    StandsOnRow bytes row segment := by
  induction row generalizing bytes with
  | zero =>
      by_cases hmem : (0x0A : UInt8) ∈ bytes
      · obtain ⟨before, after, rfl, hbefore⟩ := List.eq_append_cons_of_mem hmem
        rw [List.splitOn_append_cons_self_of_not_mem hbefore] at h
        cases h
        exact ⟨[], 0x0A :: after, rfl, rfl, .inl rfl, hbefore, .inr rfl⟩
      · rw [List.splitOn_eq_singleton hmem] at h
        cases h
        exact ⟨[], [], by simp, rfl, .inl rfl, hmem, .inl rfl⟩
  | succ row ih =>
      by_cases hmem : (0x0A : UInt8) ∈ bytes
      · obtain ⟨first, rest, rfl, hfirst⟩ := List.eq_append_cons_of_mem hmem
        rw [List.splitOn_append_cons_self_of_not_mem hfirst, List.getElem?_cons_succ] at h
        obtain ⟨before, after, rfl, hcount, hbefore, hsegment, hafter⟩ := ih h
        refine ⟨first ++ 0x0A :: before, after, by simp, ?_, ?_, hsegment, hafter⟩
        · rw [List.count_append, List.count_eq_zero.mpr hfirst, List.count_cons_self, hcount,
            Nat.zero_add]
        · right
          rcases hbefore with rfl | hlast
          · exact List.getLast?_concat
          · rw [List.getLast?_append_of_ne_nil _ (by simp), List.getLast?_cons, hlast]
            rfl
      · rw [List.splitOn_eq_singleton hmem] at h
        cases h

/-- The stretches between line feeds are numbered by the line feeds ahead of them. -/
theorem getElem?_splitOn_iff
    {bytes segment : List UInt8} {row : Nat} :
    (bytes.splitOn 0x0A)[row]? = some segment ↔ StandsOnRow bytes row segment := by
  constructor
  · exact standsOnRow_of_getElem?
  · rintro ⟨before, after, rfl, rfl, hbefore, hsegment, hafter⟩
    have hfirst : ((segment ++ after).splitOn 0x0A)[0]? = some segment := by
      rcases hafter with rfl | hhead
      · rw [List.append_nil, List.splitOn_eq_singleton hsegment]
        rfl
      · obtain ⟨rest, rfl⟩ := List.head?_eq_some_iff.mp hhead
        rw [List.splitOn_append_cons_self_of_not_mem hsegment]
        rfl
    rcases hbefore with rfl | hlast
    · exact hfirst
    · obtain ⟨front, rfl⟩ := List.getLast?_eq_some_iff.mp hlast
      have hlength : (front.splitOn 0x0A).length = (front ++ [0x0A]).count 0x0A := by
        rw [length_splitOn, List.count_append]
        rfl
      rw [List.append_assoc, List.append_assoc, List.singleton_append,
        List.splitOn_append_cons_self, List.getElem?_append_right (Nat.le_of_eq hlength),
        hlength, Nat.sub_self]
      exact hfirst

/-- A line that stands after exactly so many line feeds.  If another line feed follows, it
is what stands up to it, less a carriage return at its end; else it is what is left, if
anything is. -/
def IsLine (bytes : List UInt8) (row : Nat) (line : List UInt8) : Prop :=
  ∃ segment, StandsOnRow bytes row segment ∧
    (row < bytes.count 0x0A ∧ line = stripReturn segment ∨
      row = bytes.count 0x0A ∧ segment ≠ [] ∧ line = segment)

theorem length_dropLast_splitOn
    (bytes : List UInt8) :
    (bytes.splitOn 0x0A).dropLast.length = bytes.count 0x0A := by
  rw [List.length_dropLast, length_splitOn, Nat.add_sub_cancel]

theorem length_sourceLines_le
    (bytes : List UInt8) :
    (sourceLines bytes).length ≤ bytes.count 0x0A + 1 := by
  have hkept := List.length_filter_le (! ·.isEmpty) (bytes.splitOn 0x0A).getLast?.toList
  have hone := (bytes.splitOn 0x0A).getLast?.length_toList_le
  unfold sourceLines
  rw [List.length_append, List.length_map, length_dropLast_splitOn]
  omega

/-- The lines of a source are numbered by the line feeds ahead of them. -/
theorem getElem?_sourceLines_iff
    {bytes line : List UInt8} {row : Nat} :
    (sourceLines bytes)[row]? = some line ↔ IsLine bytes row line := by
  unfold IsLine
  simp only [← getElem?_splitOn_iff]
  have hterminated : ((bytes.splitOn 0x0A).dropLast.map stripReturn).length =
      bytes.count 0x0A := by
    rw [List.length_map, length_dropLast_splitOn]
  rcases Nat.lt_trichotomy row (bytes.count 0x0A) with hlt | rfl | hgt
  · have hline :
        (sourceLines bytes)[row]? = ((bytes.splitOn 0x0A)[row]?).map stripReturn := by
      unfold sourceLines
      rw [List.getElem?_append_left (hterminated.symm ▸ hlt), List.getElem?_map,
        List.getElem?_dropLast, length_splitOn, Nat.add_sub_cancel, if_pos hlt]
    rw [hline, Option.map_eq_some_iff]
    constructor
    · rintro ⟨segment, hsegment, rfl⟩
      exact ⟨segment, hsegment, Or.inl ⟨hlt, rfl⟩⟩
    · rintro ⟨segment, hsegment, ⟨_, rfl⟩ | ⟨hrow, _⟩⟩
      · exact ⟨segment, hsegment, rfl⟩
      · exact absurd hrow (Nat.ne_of_lt hlt)
  · have hline :
        (sourceLines bytes)[bytes.count 0x0A]? =
          ((bytes.splitOn 0x0A)[bytes.count 0x0A]?.toList.filter (! ·.isEmpty))[0]? := by
      unfold sourceLines
      rw [List.getElem?_append_right (Nat.le_of_eq hterminated), hterminated, Nat.sub_self,
        List.getLast?_eq_getElem?, length_splitOn, Nat.add_sub_cancel]
    rw [hline]
    cases (bytes.splitOn 0x0A)[bytes.count 0x0A]? with
    | none => simp
    | some segment =>
        cases segment with
        | nil => simp
        | cons byte segment => simp [eq_comm]
  · have hshort : (sourceLines bytes)[row]? = none := by
      rw [List.getElem?_eq_none_iff]
      exact Nat.le_trans (length_sourceLines_le bytes) hgt
    have hout : (bytes.splitOn 0x0A)[row]? = none := by
      rw [List.getElem?_eq_none_iff, length_splitOn]
      exact hgt
    rw [hshort, hout]
    simp

end HandlerLint.Text
