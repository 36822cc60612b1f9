import Mathlib.Algebra.BigOperators.Group.Finset.Basic
import PuzzleCalendar.Proofs.Docking.Decoding
import PuzzleCalendar.Text.Slice

/-! # Masks as they are written

A mask is written from its highest bit down, so its places count from the right end of the text. Reading
sorts the places into those that are set, cleared and floating. What an address then stands for is got by
letting one floating bit after the other take both values, in whatever order: each of them doubles the
addresses.
-/

namespace PuzzleCalendar.Docking

open Text

/-- A character that stands for a bit of a mask. -/
def IsMaskChar (char : Char) : Prop := char = '0' ∨ char = '1' ∨ char = 'X'

/-- What the mask has at a place is what the text says there, counted from the right; nothing stands beyond
its left end. -/
structure Mask.Spells (mask : Mask) (text : Text) : Prop where
  ones (place : Nat) : mask.ones.getLsbD place = true ↔ text.reverse[place]? = some '1'
  zeros (place : Nat) : mask.zeros.getLsbD place = true ↔ text.reverse[place]? = some '0'
  floating (place : Nat) : mask.floating.getLsbD place = true ↔ text.reverse[place]? = some 'X'

section Reading

variable {text bits : Text} {char : Char} {mask next : Mask}

/-- A word moved up by one place, with a bit below. -/
def shifted (word : Word) (bit : Bool) : Word := word <<< 1 ||| if bit then 1 else 0

theorem getLsbD_shifted_zero (word : Word) (bit : Bool) : (shifted word bit).getLsbD 0 = bit := by
  cases bit <;> simp [shifted]

theorem getLsbD_shifted_succ (word : Word) (bit : Bool) {place : Nat} (inside : place + 1 < 64) :
    (shifted word bit).getLsbD (place + 1) = word.getLsbD place := by
  cases bit <;> simp [shifted, inside, BitVec.getLsbD_eq_getElem (Nat.lt_of_succ_lt inside)]

/-- The word of the places at which a text has a character, the last one lowest. -/
def column (kind : Char) (start : Word) (text : Text) : Word :=
  text.foldl (fun word char => shifted word (char == kind)) start

theorem getLsbD_column (kind : Char) (short : text.length ≤ 64) (place : Nat) :
    (column kind 0 text).getLsbD place = true ↔ text.reverse[place]? = some kind := by
  induction text using List.reverseRecOn generalizing place with
  | nil => simp [column]
  | append_singleton text char ih =>
    rw [List.length_append, List.length_singleton] at short
    rw [column, List.foldl_concat, List.reverse_concat]
    cases place with
    | zero => rw [getLsbD_shifted_zero, beq_iff_eq, List.getElem?_cons_zero, Option.some_inj]
    | succ place =>
      rw [List.getElem?_cons_succ, ← ih (Nat.le_of_succ_le short)]
      by_cases inside : place + 1 < 64
      · rw [getLsbD_shifted_succ _ _ inside]
        rfl
      · -- Beyond the word there is no character either.
        have none : text.reverse[place]? = none := by
          rw [List.getElem?_eq_none_iff, List.length_reverse]
          omega
        rw [ih (Nat.le_of_succ_le short), none, BitVec.getLsbD_of_ge _ _ (Nat.not_lt.mp inside)]
        simp

theorem push?_eq_some_iff : mask.push? char = some next ↔ IsMaskChar char ∧
    next = ⟨shifted mask.ones (char == '1'), shifted mask.zeros (char == '0'),
      shifted mask.floating (char == 'X')⟩ := by
  unfold Mask.push? IsMaskChar
  split
  · simp [shifted, eq_comm]
  · simp [shifted, eq_comm]
  · simp [shifted, eq_comm]
  · simp_all

/-- Reading sorts the characters into the three words of the mask. -/
theorem readBits_eq_ok_iff : mask.readBits text = .ok next ↔ (∀ char ∈ text, IsMaskChar char) ∧
    next = ⟨column '1' mask.ones text, column '0' mask.zeros text, column 'X' mask.floating text⟩ := by
  induction text generalizing mask with
  | nil => simp [Mask.readBits, column, eq_comm]
  | cons char text ih =>
    rw [Mask.readBits, List.forall_mem_cons]
    cases pushed : mask.push? char with
    | some onward =>
      obtain ⟨known, rfl⟩ := push?_eq_some_iff.mp pushed
      simp only [ih, known, true_and]
      rfl
    | none =>
      have unknown : ¬ IsMaskChar char := fun known => by
        simp [push?_eq_some_iff.mpr ⟨known, rfl⟩] at pushed
      simp [unknown]

theorem spells_columns (short : text.length ≤ 64) :
    Mask.Spells ⟨column '1' 0 text, column '0' 0 text, column 'X' 0 text⟩ text :=
  ⟨getLsbD_column '1' short, getLsbD_column '0' short, getLsbD_column 'X' short⟩

theorem byteLength_of_isMaskChar (known : ∀ char ∈ text, IsMaskChar char) :
    byteLength text = text.length := by
  apply byteLength_eq_length
  intro char member
  rcases known char member with rfl | rfl | rfl <;> decide

/-- A text is read as the mask that it spells, when it is as wide as a mask and has no other characters. -/
theorem read_eq_ok_iff : Mask.read text = .ok mask ↔
    (text.length = 36 ∧ ∀ char ∈ text, IsMaskChar char) ∧ mask.Spells text := by
  constructor
  · intro read
    unfold Mask.read at read
    split at read
    · rename_i wide
      obtain ⟨known, rfl⟩ := readBits_eq_ok_iff.mp read
      rw [byteLength_of_isMaskChar known] at wide
      have short : text.length ≤ 64 := wide ▸ (by decide)
      exact ⟨⟨wide, known⟩, spells_columns short⟩
    · contradiction
  · rintro ⟨⟨wide, known⟩, spells⟩
    have short : text.length ≤ 64 := wide ▸ (by decide)
    have same {word : Word} {kind : Char}
        (spelled : ∀ place, word.getLsbD place = true ↔ text.reverse[place]? = some kind) :
        word = column kind 0 text := by
      apply BitVec.eq_of_getLsbD_eq
      intro place _
      rw [Bool.eq_iff_iff, spelled, getLsbD_column kind short]
    have bytes : byteLength text = Mask.width := (byteLength_of_isMaskChar known).trans wide
    rw [Mask.read, if_pos bytes, readBits_eq_ok_iff]
    refine ⟨known, ?_⟩
    obtain ⟨ones, zeros, floating⟩ := mask
    exact congr (congr (congrArg Mask.mk (same spells.ones)) (same spells.zeros)) (same spells.floating)

end Reading

/-- The word with a bit put at a place. -/
def withBit (word : Word) (place : Nat) (bit : Bool) : Word :=
  if bit then word ||| 1#64 <<< place else word &&& ~~~(1#64 <<< place)

/-- The words that come from letting a bit take both values. -/
def expandBit (words : Finset Word) (place : Nat) : Finset Word :=
  words.biUnion fun word => {withBit word place false, withBit word place true}

/-- The words that come from letting one bit after the other take both values. -/
def expanded (words : Finset Word) (order : List Nat) : Finset Word :=
  order.foldl expandBit words

section Expanding

variable {words : Finset Word} {word cell : Word} {place other : Nat} {order : List Nat} {bit : Bool}

theorem getLsbD_withBit (inside : other < 64) :
    (withBit word place bit).getLsbD other = if other = place then bit else word.getLsbD other := by
  have single : (1#64 <<< place).getLsbD other = decide (other = place) := by
    rw [BitVec.getLsbD_shiftLeft, BitVec.getLsbD_one, Bool.eq_iff_iff]
    simp [inside]
    omega
  cases bit with
  | false =>
    rw [withBit, if_neg Bool.false_ne_true, BitVec.getLsbD_and, BitVec.getLsbD_not, single]
    by_cases same : other = place <;> simp [same, inside]
  | true =>
    rw [withBit, if_pos rfl, BitVec.getLsbD_or, single]
    by_cases same : other = place <;> simp [same]

theorem mem_expandBit : cell ∈ expandBit words place ↔ ∃ word ∈ words, ∃ bit, cell = withBit word place bit := by
  simp [expandBit]

/-- Expanding bits keeps the other ones. -/
theorem mem_expanded : cell ∈ expanded words order ↔
    ∃ word ∈ words, ∀ place < 64, place ∉ order → cell.getLsbD place = word.getLsbD place := by
  induction order generalizing words with
  | nil =>
    constructor
    · intro member
      exact ⟨cell, member, fun _ _ _ => rfl⟩
    · rintro ⟨word, member, same⟩
      obtain rfl : cell = word := BitVec.eq_of_getLsbD_eq fun place inside =>
        same place inside List.not_mem_nil
      exact member
  | cons first order ih =>
    rw [expanded, List.foldl_cons]
    refine ih.trans ?_
    constructor
    · rintro ⟨_, between, same⟩
      obtain ⟨word, member, bit, rfl⟩ := mem_expandBit.mp between
      refine ⟨word, member, fun place inside unlisted => ?_⟩
      rw [List.mem_cons, not_or] at unlisted
      obtain ⟨apart, unlisted⟩ := unlisted
      rw [same place inside unlisted, getLsbD_withBit inside, if_neg apart]
    · rintro ⟨word, member, same⟩
      refine ⟨withBit word first (cell.getLsbD first), mem_expandBit.mpr ⟨word, member, _, rfl⟩, ?_⟩
      intro place inside unlisted
      rw [getLsbD_withBit inside]
      split
      · rename_i equal
        rw [equal]
      · rename_i apart
        refine same place inside fun listed => ?_
        exact (List.mem_cons.mp listed).elim apart unlisted

theorem getLsbD_eq_of_withBit_eq {two : Word} {also : Bool}
    (same : withBit word place bit = withBit two place also) (inside : other < 64) (apart : other ≠ place) :
    word.getLsbD other = two.getLsbD other := by
  have equal := congrArg (·.getLsbD other) same
  simpa only [getLsbD_withBit inside, if_neg apart] using equal

/-- A bit that takes both values doubles words that have it alike. -/
theorem card_expandBit (inside : place < 64)
    (alike : ∀ one ∈ words, ∀ two ∈ words, one.getLsbD place = two.getLsbD place) :
    (expandBit words place).card = words.card * 2 := by
  have apart (word : Word) : withBit word place false ≠ withBit word place true := by
    intro same
    have equal := congrArg (·.getLsbD place) same
    simp [getLsbD_withBit inside] at equal
  rw [expandBit, Finset.card_biUnion]
  · exact Finset.sum_const_nat fun word _ => Finset.card_pair (apart word)
  · intro one oneMember two twoMember different
    rw [Function.onFun, Finset.disjoint_left]
    intro cell isOne isTwo
    have found {word : Word} (member : cell ∈ ({withBit word place false, withBit word place true} : Finset Word)) :
        ∃ bit, cell = withBit word place bit := by
      simpa using member
    obtain ⟨_, fromOne⟩ := found isOne
    obtain ⟨_, fromTwo⟩ := found isTwo
    refine different (BitVec.eq_of_getLsbD_eq fun other within => ?_)
    by_cases here : other = place
    · rw [here, alike one oneMember two twoMember]
    · exact getLsbD_eq_of_withBit_eq (fromOne.symm.trans fromTwo) within here

/-- Each bit that is expanded doubles words that have it alike. -/
theorem card_expanded (distinct : order.Nodup) (inside : ∀ place ∈ order, place < 64)
    (alike : ∀ one ∈ words, ∀ two ∈ words, ∀ place ∈ order, one.getLsbD place = two.getLsbD place) :
    (expanded words order).card = words.card * 2 ^ order.length := by
  induction order generalizing words with
  | nil => simp [expanded]
  | cons first order ih =>
    obtain ⟨unlisted, distinct⟩ := List.nodup_cons.mp distinct
    obtain ⟨within, inside⟩ := List.forall_mem_cons.mp inside
    have doubled : (expandBit words first).card = words.card * 2 := card_expandBit within
      fun one oneMember two twoMember => alike one oneMember two twoMember first List.mem_cons_self
    have still : ∀ one ∈ expandBit words first, ∀ two ∈ expandBit words first, ∀ place ∈ order,
        one.getLsbD place = two.getLsbD place := by
      intro _ isOne _ isTwo place listed
      obtain ⟨one, oneMember, _, rfl⟩ := mem_expandBit.mp isOne
      obtain ⟨two, twoMember, _, rfl⟩ := mem_expandBit.mp isTwo
      have apart : place ≠ first := fun same => unlisted (same ▸ listed)
      rw [getLsbD_withBit (inside place listed), getLsbD_withBit (inside place listed), if_neg apart,
        if_neg apart]
      exact alike one oneMember two twoMember place (List.mem_cons_of_mem first listed)
    rw [expanded, List.foldl_cons, List.length_cons, Nat.pow_succ, Nat.mul_comm _ 2, ← Nat.mul_assoc, ← doubled]
    exact ih distinct inside still

end Expanding

/-- The places of a character, each of them once. -/
theorem exists_places (kind : Char) (text : Text) : ∃ order : List Nat, order.Nodup ∧
    (∀ place, place ∈ order ↔ text.reverse[place]? = some kind) ∧ order.length = text.count kind := by
  refine ⟨(text.reverse.zipIdx.filter fun entry => entry.1 == kind).map Prod.snd, ?_, fun place => ?_, ?_⟩
  · have all : (text.reverse.zipIdx.map Prod.snd).Nodup := by
      rw [List.zipIdx_map_snd]
      exact List.nodup_range'
    exact all.sublist (List.filter_sublist.map Prod.snd)
  · simp [List.mk_mem_zipIdx_iff_getElem?]
  · calc
      _ = text.reverse.zipIdx.countP fun entry => entry.1 == kind := by
        rw [List.length_map, List.countP_eq_length_filter]
      _ = (text.reverse.zipIdx.map Prod.fst).count kind := by
        rw [List.count, List.countP_map]
        rfl
      _ = text.count kind := by rw [List.zipIdx_map_fst, List.count_reverse]

/-- What a character of a mask makes of a bit of an address, if it stands for any: `X` allows both bits, `1`
sets the bit, and otherwise it stays. -/
def Decoded (char? : Option Char) (bit decoded : Bool) : Prop :=
  if char? = some 'X' then True
  else if char? = some '1' then decoded = true
  else decoded = bit

/-- What a character of a mask makes of a bit of a value, if it stands for any: `1` and `0` overwrite it, and
otherwise it stays. -/
def overwrittenBit (char? : Option Char) (bit : Bool) : Bool :=
  if char? = some '1' then true
  else if char? = some '0' then false
  else bit

/-- The addresses that an address stands for under a mask, by the text of the mask. -/
structure Mask.Expands (mask : Mask) (text : Text) (address : Word) : Prop where
  nodup : (mask.addresses address).Nodup
  length : (mask.addresses address).length = 2 ^ text.count 'X'
  mem_iff (cell : Word) : cell ∈ mask.addresses address ↔
    ∀ place < 64, Decoded text.reverse[place]? (address.getLsbD place) (cell.getLsbD place)
  /-- They come from letting the floating bits take both values, one after the other in any order. -/
  any_order (order : List Nat) : (∀ place, place ∈ order ↔ text.reverse[place]? = some 'X') →
    (mask.addresses address).toFinset = expanded {address ||| mask.ones} order

section Spelled

variable {text : Text} {mask : Mask}

theorem Mask.Spells.decodes_iff (spells : mask.Spells text) {address cell : Word} :
    mask.Decodes address cell ↔
      ∀ place < 64, Decoded text.reverse[place]? (address.getLsbD place) (cell.getLsbD place) := by
  have each (place : Nat) : (mask.floating.getLsbD place = false →
      cell.getLsbD place = (address.getLsbD place || mask.ones.getLsbD place)) ↔
        Decoded text.reverse[place]? (address.getLsbD place) (cell.getLsbD place) := by
    unfold Decoded
    split
    · rename_i floats
      simp [(spells.floating place).mpr floats]
    · rename_i fixed
      rw [← spells.floating, Bool.not_eq_true] at fixed
      split
      · rename_i set
        simp [fixed, (spells.ones place).mpr set]
      · rename_i unset
        rw [← spells.ones, Bool.not_eq_true] at unset
        simp [fixed, unset]
  constructor
  · intro decodes place _
    exact (each place).mp (decodes place)
  · intro decoded place fixed
    by_cases inside : place < 64
    · exact (each place).mpr (decoded place inside) fixed
    · simp only [BitVec.getLsbD_of_ge _ _ (Nat.not_lt.mp inside), Bool.or_false]

theorem Mask.Spells.expands (spells : mask.Spells text) (short : text.length ≤ 64) (address : Word) :
    mask.Expands text address := by
  have any_order (order : List Nat) (floats : ∀ place, place ∈ order ↔ text.reverse[place]? = some 'X') :
      (mask.addresses address).toFinset = expanded {address ||| mask.ones} order := by
    ext cell
    simp only [List.mem_toFinset, mem_addresses, mem_expanded, Finset.mem_singleton, exists_eq_left,
      BitVec.getLsbD_or, floats, ← spells.floating, Bool.not_eq_true]
    constructor
    · intro decodes place _ fixed
      exact decodes place fixed
    · intro same place fixed
      by_cases inside : place < 64
      · exact same place inside fixed
      · simp only [BitVec.getLsbD_of_ge _ _ (Nat.not_lt.mp inside), Bool.or_false]
  obtain ⟨order, distinct, floats, counted⟩ := exists_places 'X' text
  have inside : ∀ place ∈ order, place < 64 := by
    intro place listed
    obtain ⟨within, -⟩ := List.getElem?_eq_some_iff.mp ((floats place).mp listed)
    rw [List.length_reverse] at within
    omega
  refine ⟨nodup_addresses mask address, ?_, fun cell => ?_, any_order⟩
  · rw [← List.toFinset_card_of_nodup (nodup_addresses mask address), any_order order floats,
      card_expanded distinct inside (by simp), Finset.card_singleton, Nat.one_mul, counted]
  · rw [mem_addresses, spells.decodes_iff]

theorem Mask.Spells.getLsbD_overwrite (spells : mask.Spells text) (value : Word) {place : Nat}
    (inside : place < 64) : (mask.overwrite value).getLsbD place =
      overwrittenBit text.reverse[place]? (value.getLsbD place) := by
  rw [Mask.overwrite, BitVec.getLsbD_or, BitVec.getLsbD_and, BitVec.getLsbD_not, overwrittenBit]
  split
  · rename_i set
    rw [(spells.ones place).mpr set, Bool.or_true]
  · rename_i unset
    rw [← spells.ones, Bool.not_eq_true] at unset
    split
    · rename_i cleared
      simp [unset, (spells.zeros place).mpr cleared]
    · rename_i kept
      rw [← spells.zeros, Bool.not_eq_true] at kept
      simp only [unset, kept, inside, decide_true, Bool.not_false, Bool.and_true, Bool.or_false]

end Spelled

/-- The masks are the texts of thirty-six characters `0`, `1` and `X`. An address under a mask stands once
for each of the two to the number of `X` addresses that have the bit set where the text has `1`, any bit
where it has `X` and their own bit elsewhere: those that come from expanding the floating bits one by one in
any order. A value gets the bits of the text and keeps its own elsewhere. -/
theorem read_decodes (text : Text) :
    ((∃ mask, Mask.read text = .ok mask) ↔ text.length = 36 ∧ ∀ char ∈ text, IsMaskChar char) ∧
    ∀ mask, Mask.read text = .ok mask → (∀ address, mask.Expands text address) ∧
      ∀ value : Word, ∀ place < 64, (mask.overwrite value).getLsbD place =
        overwrittenBit text.reverse[place]? (value.getLsbD place) := by
  have short (wide : text.length = 36) : text.length ≤ 64 := wide ▸ (by decide)
  simp only [read_eq_ok_iff]
  constructor
  · constructor
    · rintro ⟨_, shape, _⟩
      exact shape
    · intro shape
      exact ⟨_, shape, spells_columns (short shape.1)⟩
  · rintro mask ⟨⟨wide, -⟩, spells⟩
    exact ⟨spells.expands (short wide), fun value _ inside => spells.getLsbD_overwrite value inside⟩

/-- A mask with bits of all three kinds. -/
def scattered : Text := "X00000000000000000000000000000X1001X".toList

theorem read_decodes_scattered : ∃ mask, Mask.read scattered = .ok mask ∧
    (∀ address, mask.Expands scattered address) ∧
    ∀ value : Word, ∀ place < 64, (mask.overwrite value).getLsbD place =
      overwrittenBit scattered.reverse[place]? (value.getLsbD place) := by
  have read : Mask.read scattered = .ok ⟨0x12, 0x7FFFFFFCC, 0x800000021⟩ := by decide +kernel
  exact ⟨_, read, (read_decodes scattered).2 _ read⟩

end PuzzleCalendar.Docking
