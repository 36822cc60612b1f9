import Mathlib.Data.List.DropRight
import PuzzleCalendar.Proofs.MessageGrammar.Matching

/-! # The looping rules

The looping forms let rule 8 repeat rule 42 and rule 11 put as many of rule 31 after a run of rule 42.
When rule 0 is 8 before 11, its strings are blocks of rule 42 followed by fewer blocks of rule 31. The
blocks are those of the grammar as it was read when 42 and 31 do not come back to 8 and 11, and the
matcher finds all of them when no rule below 42 and 31 is left recursive.
-/

namespace PuzzleCalendar.MessageGrammar

open Text

namespace Grammar

variable {grammar other : Grammar} {id : Nat} {sequence : List Nat} {string : List UInt8}

theorem derives_nil_iff : grammar.Derives [] string ↔ string = [] := by
  constructor
  · intro derived
    cases derived
    rfl
  · rintro rfl
    exact .nil

/-- A sequence derives what its first rule derives before what the others derive. -/
theorem derives_cons_iff : grammar.Derives (id :: sequence) string ↔
    ∃ first others, string = first ++ others ∧ grammar.Derives [id] first ∧
      grammar.Derives sequence others := by
  constructor
  · intro derived
    cases derived with
    | terminal found rest => exact ⟨_, _, rfl, .terminal found .nil, rest⟩
    | @choice _ _ _ _ first others found member inside rest =>
      exact ⟨first, others, rfl, List.append_nil first ▸ .choice found member inside .nil, rest⟩
  · rintro ⟨first, others, rfl, head, rest⟩
    cases head with
    | terminal found none =>
      obtain rfl := derives_nil_iff.mp none
      exact .terminal found rest
    | choice found member inside none =>
      obtain rfl := derives_nil_iff.mp none
      rw [List.append_nil]
      exact .choice found member inside rest

theorem derives_choice_iff {alternatives : List (List Nat)}
    (found : grammar.rule? id = some (.choice alternatives)) :
    grammar.Derives [id] string ↔ ∃ alternative ∈ alternatives, grammar.Derives alternative string := by
  constructor
  · intro derived
    cases derived with
    | terminal same => simp [found] at same
    | choice same member inside none =>
      obtain rfl : alternatives = _ := by simpa [found] using same
      obtain rfl := derives_nil_iff.mp none
      rw [List.append_nil]
      exact ⟨_, member, inside⟩
  · rintro ⟨alternative, member, inside⟩
    exact List.append_nil string ▸ .choice found member inside .nil

/-- Rules of a closed set derive the same in a grammar that has the same rules there. -/
theorem Derives.congr {within : Nat → Prop}
    (closed : ∀ id part, within id → grammar.Mentions id part → within part)
    (agree : ∀ id, within id → other.rule? id = grammar.rule? id)
    (derived : grammar.Derives sequence string) (all : ∀ id ∈ sequence, within id) :
    other.Derives sequence string := by
  induction derived with
  | nil => exact .nil
  | terminal found _ ih =>
    obtain ⟨inside, others⟩ := List.forall_mem_cons.mp all
    exact .terminal ((agree _ inside).trans found) (ih others)
  | @choice id alternatives alternative _ _ _ found member _ _ inner outer =>
    obtain ⟨inside, others⟩ := List.forall_mem_cons.mp all
    refine .choice ((agree id inside).trans found) member (inner fun part listed => ?_) (outer others)
    exact closed id part inside ⟨alternatives, alternative, found, member, listed⟩

/-- A rule that 42 or 31 reaches. -/
def BelowBlocks (grammar : Grammar) (rule : Nat) : Prop :=
  Relation.ReflTransGen grammar.Mentions 42 rule ∨ Relation.ReflTransGen grammar.Mentions 31 rule

/-- Rule 0 is 8 before 11, the rules 42 and 31 are there, they reach neither 8 nor 11, and no rule that
they reach is left recursive. -/
structure Loopable (grammar : Grammar) : Prop where
  start : grammar.rule? 0 = some (.choice [[8, 11]])
  front : (grammar.rule? 42).isSome
  back : (grammar.rule? 31).isSome
  apart : ∀ rule, grammar.BelowBlocks rule → rule ≠ 8 ∧ rule ≠ 11
  acyclic : ∀ rule, grammar.BelowBlocks rule → ¬ grammar.LeftRecursive rule

/-- The grammar with the looping forms of the rules 8 and 11. -/
def looped (grammar : Grammar) : Grammar :=
  ⟨(8, .choice [[42], [42, 8]]) :: (11, .choice [[42, 31], [42, 11, 31]]) :: grammar.rules⟩

theorem rule?_looped_eight (grammar : Grammar) :
    grammar.looped.rule? 8 = some (.choice [[42], [42, 8]]) := rfl

theorem rule?_looped_eleven (grammar : Grammar) :
    grammar.looped.rule? 11 = some (.choice [[42, 31], [42, 11, 31]]) := rfl

theorem rule?_looped {rule : Nat} (eight : rule ≠ 8) (eleven : rule ≠ 11) :
    grammar.looped.rule? rule = grammar.rule? rule := by
  have first : (rule == 8) = false := by simpa using eight
  have second : (rule == 11) = false := by simpa using eleven
  simp only [rule?, looped, List.lookup_cons, first, second]

theorem Proper.looped (proper : grammar.Proper) : grammar.looped.Proper := by
  intro id alternatives found
  by_cases eight : id = 8
  · subst eight
    obtain rfl : _ = alternatives := by simpa [rule?_looped_eight] using found
    decide
  · by_cases eleven : id = 11
    · subst eleven
      obtain rfl : _ = alternatives := by simpa [rule?_looped_eleven] using found
      decide
    · exact proper id alternatives (rule?_looped eight eleven ▸ found)

/-- Blocks of a rule one after the other. -/
def Blocks (grammar : Grammar) (rule : Nat) (blocks : List (List UInt8)) : Prop :=
  ∀ block ∈ blocks, grammar.Derives [rule] block

/-- Rule 8 repeats rule 42. -/
theorem derives_eight_iff (proper : grammar.looped.Proper) : grammar.looped.Derives [8] string ↔
    ∃ front, grammar.looped.Blocks 42 front ∧ front ≠ [] ∧ string = front.flatten := by
  constructor
  · intro derived
    -- A block is not empty, so what follows it is shorter.
    induction size : string.length using Nat.strong_induction_on generalizing string with
    | h size ih =>
    subst size
    obtain ⟨alternative, member, derived⟩ :=
      (derives_choice_iff (rule?_looped_eight grammar)).mp derived
    obtain rfl | rfl : alternative = [42] ∨ alternative = [42, 8] := by simpa using member
    · exact ⟨[string], List.forall_mem_singleton.mpr derived, by simp, by simp⟩
    · obtain ⟨first, others, rfl, block, rest⟩ := derives_cons_iff.mp derived
      have filled := List.length_pos_of_ne_nil (block.ne_nil proper (by simp))
      obtain ⟨front, blocks, -, rfl⟩ := ih others.length (by rw [List.length_append]; omega) rest rfl
      exact ⟨first :: front, List.forall_mem_cons.mpr ⟨block, blocks⟩, by simp, rfl⟩
  · rintro ⟨front, blocks, some, rfl⟩
    induction front with
    | nil => contradiction
    | cons first front ih =>
      obtain ⟨block, blocks⟩ := List.forall_mem_cons.mp blocks
      rw [derives_choice_iff (rule?_looped_eight grammar)]
      cases front with
      | nil => exact ⟨[42], by simp, by simpa using block⟩
      | cons second front =>
        exact ⟨[42, 8], by simp, derives_cons_iff.mpr ⟨first, _, rfl, block, ih blocks (by simp)⟩⟩

/-- Rule 11 puts as many blocks of rule 31 after blocks of rule 42. -/
theorem derives_eleven_iff (proper : grammar.looped.Proper) : grammar.looped.Derives [11] string ↔
    ∃ front back, grammar.looped.Blocks 42 front ∧ grammar.looped.Blocks 31 back ∧
      front.length = back.length ∧ back ≠ [] ∧ string = front.flatten ++ back.flatten := by
  constructor
  · intro derived
    induction size : string.length using Nat.strong_induction_on generalizing string with
    | h size ih =>
    subst size
    obtain ⟨alternative, member, derived⟩ :=
      (derives_choice_iff (rule?_looped_eleven grammar)).mp derived
    obtain rfl | rfl : alternative = [42, 31] ∨ alternative = [42, 11, 31] := by simpa using member
    · obtain ⟨first, last, rfl, block, rest⟩ := derives_cons_iff.mp derived
      exact ⟨[first], [last], List.forall_mem_singleton.mpr block, List.forall_mem_singleton.mpr rest,
        rfl, by simp, by simp⟩
    · obtain ⟨first, others, rfl, block, rest⟩ := derives_cons_iff.mp derived
      obtain ⟨middle, last, rfl, inner, ending⟩ := derives_cons_iff.mp rest
      have filled := List.length_pos_of_ne_nil (block.ne_nil proper (by simp))
      obtain ⟨front, back, fronts, backs, same, -, rfl⟩ :=
        ih middle.length (by simp only [List.length_append]; omega) inner rfl
      refine ⟨first :: front, back ++ [last], List.forall_mem_cons.mpr ⟨block, fronts⟩, ?_, ?_, ?_, ?_⟩
      · exact List.forall_mem_append.mpr ⟨backs, List.forall_mem_singleton.mpr ending⟩
      · simp [same]
      · simp
      · simp
  · rintro ⟨front, back, fronts, backs, same, some, rfl⟩
    induction back using List.reverseRecOn generalizing front with
    | nil => contradiction
    | append_singleton back last ih =>
      obtain ⟨backs, rest⟩ := List.forall_mem_append.mp backs
      have rest := List.forall_mem_singleton.mp rest
      cases front with
      | nil => simp at same
      | cons first front =>
        obtain ⟨block, fronts⟩ := List.forall_mem_cons.mp fronts
        rw [derives_choice_iff (rule?_looped_eleven grammar)]
        by_cases none : back = []
        · subst none
          obtain rfl : front = [] := by simpa using same
          exact ⟨[42, 31], by simp, derives_cons_iff.mpr ⟨first, last, by simp, block, rest⟩⟩
        · have inner := ih front fronts backs (by simpa using same) none
          refine ⟨[42, 11, 31], by simp, derives_cons_iff.mpr ⟨first, _, ?_, block,
            derives_cons_iff.mpr ⟨_, last, rfl, inner, rest⟩⟩⟩
          simp

/-- Rule 0 puts fewer blocks of rule 31 after blocks of rule 42. -/
theorem derives_start_iff (proper : grammar.looped.Proper)
    (start : grammar.rule? 0 = some (.choice [[8, 11]])) : grammar.looped.Derives [0] string ↔
    ∃ front back, grammar.looped.Blocks 42 front ∧ grammar.looped.Blocks 31 back ∧
      string = front.flatten ++ back.flatten ∧ 1 ≤ back.length ∧ back.length < front.length := by
  have found : grammar.looped.rule? 0 = some (.choice [[8, 11]]) :=
    (rule?_looped (by decide) (by decide)).trans start
  simp only [derives_choice_iff found, List.mem_singleton, exists_eq_left]
  rw [derives_cons_iff]
  simp only [derives_eight_iff proper, derives_eleven_iff proper]
  constructor
  · rintro ⟨_, _, rfl, ⟨more, mores, many, rfl⟩, front, back, fronts, backs, same, some, rfl⟩
    have first := List.length_pos_of_ne_nil many
    have last := List.length_pos_of_ne_nil some
    refine ⟨more ++ front, back, List.forall_mem_append.mpr ⟨mores, fronts⟩, backs, ?_, last, ?_⟩
    · simp
    · rw [List.length_append]
      omega
  · rintro ⟨front, back, fronts, backs, rfl, some, longer⟩
    obtain ⟨more, rest, rfl, same⟩ : ∃ more rest, front = more ++ rest ∧ rest.length = back.length :=
      ⟨_, _, (List.take_append_drop (front.length - back.length) front).symm, by
        rw [List.length_drop]; omega⟩
    obtain ⟨mores, rests⟩ := List.forall_mem_append.mp fronts
    have many : more ≠ [] := by
      rintro rfl
      rw [List.nil_append] at longer
      omega
    exact ⟨more.flatten, rest.flatten ++ back.flatten, by simp, ⟨more, mores, many, rfl⟩,
      rest, back, rests, backs, same, List.ne_nil_of_length_pos some, rfl⟩

section Loopable

variable (loopable : grammar.Loopable)
include loopable

theorem Loopable.rule?_eq {rule : Nat} (below : grammar.BelowBlocks rule) :
    grammar.looped.rule? rule = grammar.rule? rule :=
  rule?_looped (loopable.apart rule below).1 (loopable.apart rule below).2

omit loopable in
theorem BelowBlocks.mentioned {rule part : Nat} (below : grammar.BelowBlocks rule)
    (mentions : grammar.Mentions rule part) : grammar.BelowBlocks part :=
  below.imp (·.tail mentions) (·.tail mentions)

theorem Loopable.mentions_iff {rule part : Nat} (below : grammar.BelowBlocks rule) :
    grammar.looped.Mentions rule part ↔ grammar.Mentions rule part := by
  rw [Mentions, Mentions, loopable.rule?_eq below]

/-- The blocks of both grammars are the same. -/
theorem Loopable.derives_iff {rule : Nat} (below : grammar.BelowBlocks rule) :
    grammar.looped.Derives [rule] string ↔ grammar.Derives [rule] string := by
  have closed (id part : Nat) (inside : grammar.BelowBlocks id) (mentions : grammar.Mentions id part) :=
    inside.mentioned mentions
  constructor
  · intro derived
    exact derived.congr (fun id part inside mentions =>
      closed id part inside ((loopable.mentions_iff inside).mp mentions))
      (fun id inside => (loopable.rule?_eq inside).symm) (List.forall_mem_singleton.mpr below)
  · intro derived
    exact derived.congr closed (fun id inside => loopable.rule?_eq inside)
      (List.forall_mem_singleton.mpr below)

/-- A rule of the grammar with the looping forms: below the blocks, or one of those above them. -/
def InLoops (grammar : Grammar) (rule : Nat) : Prop :=
  grammar.BelowBlocks rule ∨ rule = 8 ∨ rule = 11 ∨ rule = 0

theorem Loopable.inLoops_of_mentions {rule part : Nat} (inside : grammar.InLoops rule)
    (mentions : grammar.looped.Mentions rule part) : grammar.InLoops part := by
  have front : grammar.BelowBlocks 42 := .inl .refl
  have back : grammar.BelowBlocks 31 := .inr .refl
  obtain below | top := inside
  · exact .inl (below.mentioned ((loopable.mentions_iff below).mp mentions))
  · obtain ⟨alternatives, alternative, found, member, listed⟩ := mentions
    obtain rfl | rfl | rfl := top
    · obtain rfl : _ = alternatives := by simpa [rule?_looped_eight] using found
      obtain rfl | rfl : part = 42 ∨ part = 8 := by aesop
      · exact .inl front
      · exact .inr (.inl rfl)
    · obtain rfl : _ = alternatives := by simpa [rule?_looped_eleven] using found
      obtain rfl | rfl | rfl : part = 42 ∨ part = 31 ∨ part = 11 := by aesop
      · exact .inl front
      · exact .inl back
      · exact .inr (.inr (.inl rfl))
    · rw [rule?_looped (by decide) (by decide), loopable.start] at found
      obtain rfl : _ = alternatives := by simpa using found
      obtain rfl | rfl : part = 8 ∨ part = 11 := by aesop
      · exact .inr (.inl rfl)
      · exact .inr (.inr (.inl rfl))

theorem Loopable.starts_iff {rule part : Nat} (below : grammar.BelowBlocks rule) :
    grammar.looped.StartsWith rule part ↔ grammar.StartsWith rule part := by
  rw [StartsWith, StartsWith, loopable.rule?_eq below]

/-- What a rule below the blocks reaches at the left end is the same in both grammars. -/
theorem Loopable.below_of_transGen {rule part : Nat} (below : grammar.BelowBlocks rule)
    (reaches : Relation.TransGen grammar.looped.StartsWith rule part) :
    Relation.TransGen grammar.StartsWith rule part ∧ grammar.BelowBlocks part := by
  induction reaches with
  | single step =>
    have starts := (loopable.starts_iff below).mp step
    exact ⟨.single starts, below.mentioned starts.mentions⟩
  | tail _ step ih =>
    obtain ⟨reaches, middle⟩ := ih
    have starts := (loopable.starts_iff middle).mp step
    exact ⟨reaches.tail starts, middle.mentioned starts.mentions⟩

/-- The rules 8 and 11 start with 42, and so they reach only rules below the blocks at the left end. -/
theorem Loopable.below_of_top {rule part : Nat} (top : rule = 8 ∨ rule = 11)
    (reaches : Relation.TransGen grammar.looped.StartsWith rule part) : grammar.BelowBlocks part := by
  obtain ⟨next, ⟨alternatives, rest, found, member⟩, later⟩ := Relation.TransGen.head'_iff.mp reaches
  have front : grammar.BelowBlocks next := by
    obtain rfl : next = 42 := by
      obtain rfl | rfl := top
      · obtain rfl : _ = alternatives := by simpa [rule?_looped_eight] using found
        aesop
      · obtain rfl : _ = alternatives := by simpa [rule?_looped_eleven] using found
        aesop
    exact .inl .refl
  obtain rfl | more := Relation.reflTransGen_iff_eq_or_transGen.mp later
  · exact front
  · exact (loopable.below_of_transGen front more).2

theorem Loopable.not_leftRecursive {rule : Nat} (inside : grammar.InLoops rule) :
    ¬ grammar.looped.LeftRecursive rule := by
  intro cycle
  obtain below | eight | eleven | rfl := inside
  · exact loopable.acyclic rule below (loopable.below_of_transGen below cycle).1
  · exact (loopable.apart rule (loopable.below_of_top (.inl eight) cycle)).1 eight
  · exact (loopable.apart rule (loopable.below_of_top (.inr eleven) cycle)).2 eleven
  · -- Rule 0 starts with 8, and if it came back below the blocks so would 8.
    obtain ⟨next, ⟨alternatives, rest, found, member⟩, later⟩ := Relation.TransGen.head'_iff.mp cycle
    rw [rule?_looped (by decide) (by decide), loopable.start] at found
    obtain rfl : _ = alternatives := by simpa using found
    obtain ⟨rfl, rfl⟩ : next = 8 ∧ rest = [11] := by simpa using member
    obtain same | more := Relation.reflTransGen_iff_eq_or_transGen.mp later
    · contradiction
    · have below := loopable.below_of_top (.inl rfl) more
      have again : grammar.BelowBlocks 8 := below.mentioned ⟨_, [8, 11], loopable.start, by simp, by simp⟩
      exact (loopable.apart 8 again).1 rfl

/-- The matcher finds every derivation with the looping forms. -/
theorem Loopable.accepts_iff (proper : grammar.Proper) (message : Text) :
    grammar.looped.accepts message = true ↔ grammar.looped.Derives [0] (bytes message) := by
  rw [accepts_iff_directly proper.looped]
  refine ⟨DerivesDirectly.derives, fun derived => ?_⟩
  exact derived.directly_within grammar.InLoops (fun _ _ => loopable.inLoops_of_mentions)
    (fun _ => loopable.not_leftRecursive) (List.forall_mem_singleton.mpr (.inr (.inr (.inr rfl)))) (by simp)

theorem Loopable.withLoops_eq : grammar.withLoops = .ok grammar.looped := by
  have none : [42, 31].find? (fun id => (grammar.rule? id).isNone) = none := by
    have front := loopable.front
    have back := loopable.back
    simp_all [Option.isSome_iff_ne_none]
  rw [withLoops, none]
  rfl

end Loopable

/-- With the looping forms a message is accepted when it is made of blocks of rule 42 and then fewer
blocks of rule 31, of which there is at least one. -/
theorem looping_accepts_blocks {text : Text} {inbox : Inbox} (parsed : parse text = .ok inbox)
    (loopable : inbox.grammar.Loopable) :
    ∃ looping, inbox.grammar.withLoops = .ok looping ∧
      countLooping inbox = .ok (toString (inbox.messages.countP looping.accepts)) ∧
      ∀ message, looping.accepts message = true ↔
        ∃ front back, inbox.grammar.Blocks 42 front ∧ inbox.grammar.Blocks 31 back ∧
          bytes message = front.flatten ++ back.flatten ∧
          1 ≤ back.length ∧ back.length < front.length := by
  have proper := proper_of_parse parsed
  refine ⟨inbox.grammar.looped, loopable.withLoops_eq, ?_, fun message => ?_⟩
  · rw [countLooping, loopable.withLoops_eq]
    rfl
  · have front : inbox.grammar.BelowBlocks 42 := .inl .refl
    have back : inbox.grammar.BelowBlocks 31 := .inr .refl
    rw [loopable.accepts_iff proper, derives_start_iff proper.looped loopable.start]
    simp only [Blocks, loopable.derives_iff front, loopable.derives_iff back]

/-- Rule 42 is the letter `a` and rule 31 the letter `b`. -/
def letterBlocks : Grammar :=
  ⟨[(31, .terminal 98), (42, .terminal 97), (11, .choice [[42, 31]]), (8, .choice [[42]]),
    (0, .choice [[8, 11]])]⟩

theorem looping_accepts_letterBlocks :
    ∃ inbox, parse "0: 8 11\n8: 42\n11: 42 31\n42: \"a\"\n31: \"b\"\n\naab\n".toList = .ok inbox ∧
      inbox.grammar.Loopable ∧
      ∃ looping, inbox.grammar.withLoops = .ok looping ∧
        countLooping inbox = .ok (toString (inbox.messages.countP looping.accepts)) ∧
        ∀ message, looping.accepts message = true ↔
          ∃ front back, inbox.grammar.Blocks 42 front ∧ inbox.grammar.Blocks 31 back ∧
            bytes message = front.flatten ++ back.flatten ∧
            1 ≤ back.length ∧ back.length < front.length := by
  have parsed : parse "0: 8 11\n8: 42\n11: 42 31\n42: \"a\"\n31: \"b\"\n\naab\n".toList =
      .ok ⟨letterBlocks, ["aab".toList]⟩ := by decide +kernel
  have dead {rule part : Nat} (letter : rule = 42 ∨ rule = 31) : ¬ letterBlocks.Mentions rule part := by
    rintro ⟨_, _, found, -⟩
    obtain rfl | rfl := letter <;> cases found
  have lone {rule : Nat} (below : letterBlocks.BelowBlocks rule) : rule = 42 ∨ rule = 31 := by
    refine below.imp (fun reaches => ?_) (fun reaches => ?_)
    all_goals obtain rfl | ⟨part, mentions, -⟩ := reaches.cases_head
    · rfl
    · exact absurd mentions (dead (.inl rfl))
    · rfl
    · exact absurd mentions (dead (.inr rfl))
  have loopable : letterBlocks.Loopable := {
    start := rfl
    front := rfl
    back := rfl
    apart := fun rule below => by have := lone below; omega
    acyclic := fun rule below cycle => by
      obtain ⟨part, starts, -⟩ := Relation.TransGen.head'_iff.mp cycle
      exact dead (lone below) starts.mentions }
  exact ⟨_, parsed, loopable, looping_accepts_blocks parsed loopable⟩

end Grammar

end PuzzleCalendar.MessageGrammar
