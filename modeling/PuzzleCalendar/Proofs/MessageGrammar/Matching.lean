import Mathlib.Data.List.Basic
import PuzzleCalendar.Proofs.MessageGrammar.Derivation

/-! # Matching against derivations

The matcher ends exactly where a derivation ends that enters no active rule at the place where it is
active. Below no active rules these are the direct derivations, and so the matcher accepts a message
exactly when rule 0 derives it steadily: a rule that comes back at the left end for a shorter string
is not found. Without left recursion nothing is lost.
-/

namespace PuzzleCalendar.MessageGrammar

open Text

namespace Grammar

/-- A sequence of rules matches a message from one place to another without entering an active rule at
the place where it is active. -/
inductive Matches (grammar : Grammar) (message : Array UInt8) :
    List (Nat × Nat) → List Nat → Nat → Nat → Prop
  | nil {active : List (Nat × Nat)} {start : Nat} : Matches grammar message active [] start start
  | terminal {active : List (Nat × Nat)} {id start stop : Nat} {byte : UInt8} {sequence : List Nat}
      (found : grammar.rule? id = some (.terminal byte)) (read : message[start]? = some byte)
      (rest : Matches grammar message active sequence (start + 1) stop) :
      Matches grammar message active (id :: sequence) start stop
  | choice {active : List (Nat × Nat)} {id start middle stop : Nat}
      {alternatives : List (List Nat)} {alternative sequence : List Nat}
      (found : grammar.rule? id = some (.choice alternatives)) (fresh : (id, start) ∉ active)
      (member : alternative ∈ alternatives)
      (inside : Matches grammar message ((id, start) :: active) alternative start middle)
      (rest : Matches grammar message active sequence middle stop) :
      Matches grammar message active (id :: sequence) start stop

namespace Matches

variable {grammar : Grammar} {message : Array UInt8} {active : List (Nat × Nat)}
  {id start stop : Nat} {sequence : List Nat}

theorem nil_iff : grammar.Matches message active [] start stop ↔ start = stop := by
  constructor
  · intro match_nil
    cases match_nil
    rfl
  · rintro rfl
    exact .nil

theorem cons_iff : grammar.Matches message active (id :: sequence) start stop ↔
    ∃ middle, grammar.Matches message active [id] start middle ∧
      grammar.Matches message active sequence middle stop := by
  constructor
  · intro whole
    cases whole with
    | terminal found read rest => exact ⟨start + 1, .terminal found read .nil, rest⟩
    | choice found fresh member inside rest =>
      exact ⟨_, .choice found fresh member inside .nil, rest⟩
  · rintro ⟨middle, head, rest⟩
    cases head with
    | terminal found read none =>
      obtain rfl := nil_iff.mp none
      exact .terminal found read rest
    | choice found fresh member inside none =>
      obtain rfl := nil_iff.mp none
      exact .choice found fresh member inside rest

theorem terminal_iff {byte : UInt8} (found : grammar.rule? id = some (.terminal byte)) :
    grammar.Matches message active [id] start stop ↔
      message[start]? = some byte ∧ stop = start + 1 := by
  constructor
  · intro single
    cases single with
    | terminal other read none =>
      obtain rfl : byte = _ := by simpa [found] using other
      exact ⟨read, (nil_iff.mp none).symm⟩
    | choice other => simp [found] at other
  · rintro ⟨read, rfl⟩
    exact .terminal found read .nil

theorem choice_iff {alternatives : List (List Nat)}
    (found : grammar.rule? id = some (.choice alternatives)) :
    grammar.Matches message active [id] start stop ↔ (id, start) ∉ active ∧
      ∃ alternative ∈ alternatives,
        grammar.Matches message ((id, start) :: active) alternative start stop := by
  constructor
  · intro single
    cases single with
    | terminal other => simp [found] at other
    | choice other fresh member inside none =>
      obtain rfl : alternatives = _ := by simpa [found] using other
      obtain rfl := nil_iff.mp none
      exact ⟨fresh, _, member, inside⟩
  · rintro ⟨fresh, alternative, member, inside⟩
    exact .choice found fresh member inside .nil

/-- A match of at least one rule consumes at least one byte of the message. -/
theorem bounds (matched : grammar.Matches message active sequence start stop)
    (proper : grammar.Proper) :
    start ≤ stop ∧ (sequence ≠ [] → start < stop ∧ stop ≤ message.size) := by
  induction matched with
  | nil => simp
  | @terminal active id start stop byte sequence found read rest ih =>
    have within : start < message.size := (Array.getElem?_eq_some_iff.mp read).1
    refine ⟨by omega, fun _ => ⟨by omega, ?_⟩⟩
    cases sequence with
    | nil => obtain rfl := nil_iff.mp rest; omega
    | cons => exact (ih.2 (by simp)).2
  | @choice active id start middle stop alternatives alternative sequence found _ member _ rest inner outer =>
    have filled : alternative ≠ [] := fun empty => proper id alternatives found (empty ▸ member)
    obtain ⟨longer, within⟩ := inner.2 filled
    refine ⟨by omega, fun _ => ⟨by omega, ?_⟩⟩
    cases sequence with
    | nil => obtain rfl := nil_iff.mp rest; exact within
    | cons => exact (outer.2 (by simp)).2

end Matches

end Grammar

namespace Reached

variable {before : List (Nat × Nat)}
  {enter : (active : List (Nat × Nat)) → active = before → Nat → Nat → Reached active}

/-- The entries after a match are those before it, so the match after it is the same one. -/
private theorem mem_enter {active : List (Nat × Nat)} (kept : active = before) {part place stop : Nat} :
    stop ∈ (enter active kept part place).places ↔ stop ∈ (enter before rfl part place).places := by
  subst kept
  rfl

theorem mem_fromEach {part stop : Nat} (reached : Reached before) :
    stop ∈ (reached.fromEach fun active kept place => enter active kept part place).places ↔
      ∃ place ∈ reached.places, stop ∈ (enter before rfl part place).places := by
  have loop (places : List Nat) (next : Reached before) :
      stop ∈ (places.foldl (fun next place =>
          let ended := enter next.active next.kept part place
          ⟨merged next.places ended.places, ended.active, ended.kept.trans next.kept⟩)
        next : Reached before).places ↔
        stop ∈ next.places ∨ ∃ place ∈ places, stop ∈ (enter before rfl part place).places := by
    induction places generalizing next with
    | nil => simp
    | cons place rest ih =>
      simp only [List.foldl_cons, ih, mem_merged, List.exists_mem_cons_iff, or_assoc,
        mem_enter next.kept]
  unfold fromEach
  rw [loop]
  simp

/-- If entering single rules agrees with matching, so does going along a sequence of them. -/
theorem mem_along {grammar : Grammar} {message : Array UInt8}
    (agrees : ∀ part place stop, stop ∈ (enter before rfl part place).places ↔
      grammar.Matches message before [part] place stop)
    (sequence : List Nat) (reached : Reached before) (stop : Nat) :
    stop ∈ (along enter sequence reached).places ↔
      ∃ place ∈ reached.places, grammar.Matches message before sequence place stop := by
  induction sequence generalizing reached with
  | nil => simp [along, Grammar.Matches.nil_iff]
  | cons part rest ih =>
    have step := ih (reached.fromEach fun active kept place => enter active kept part place)
    simp only [along, List.foldl_cons] at step ⊢
    simp only [step, mem_fromEach, agrees, @Grammar.Matches.cons_iff _ _ _ _ _ _ rest]
    constructor
    · rintro ⟨middle, ⟨place, member, head⟩, tail⟩
      exact ⟨place, member, middle, head, tail⟩
    · rintro ⟨place, member, middle, head, tail⟩
      exact ⟨middle, ⟨place, member, head⟩, tail⟩

theorem mem_amongst {grammar : Grammar} {message : Array UInt8}
    (agrees : ∀ part place stop, stop ∈ (enter before rfl part place).places ↔
      grammar.Matches message before [part] place stop)
    (alternatives : List (List Nat)) (start stop : Nat) :
    stop ∈ (amongst enter alternatives start).places ↔
      ∃ alternative ∈ alternatives, grammar.Matches message before alternative start stop := by
  have loop (found : Reached before) :
      stop ∈ (alternatives.foldl (fun found sequence =>
          let ended := along enter sequence ⟨[start], found.active, found.kept⟩
          ⟨merged found.places ended.places, ended.active, ended.kept⟩) found : Reached before).places ↔
        stop ∈ found.places ∨
          ∃ alternative ∈ alternatives, grammar.Matches message before alternative start stop := by
    induction alternatives generalizing found with
    | nil => simp
    | cons alternative rest ih =>
      simp only [List.foldl_cons, ih, mem_merged, mem_along agrees, List.exists_mem_cons_iff,
        List.mem_singleton, exists_eq_left, or_assoc]
  unfold amongst
  rw [loop]
  simp

end Reached

namespace Grammar

variable {grammar : Grammar} {message : Array UInt8}

/-- A choice that is not active yet ends where its alternatives end while it is active. -/
private theorem places_of_choice {active : List (Nat × Nat)} {id start : Nat}
    {alternatives : List (List Nat)} (within : start < message.size)
    (found : grammar.rule? id = some (.choice alternatives)) (fresh : (id, start) ∉ active) :
    (grammar.ends message active id start).places =
      (Reached.amongst (fun entered (_ : entered = (id, start) :: active) part place =>
        grammar.ends message entered part place) alternatives start).places := by
  rw [ends]
  simp only [within, ↓reduceDIte]
  split <;> simp_all [Reached.leave]

/-- The matcher ends where a match ends. -/
theorem mem_ends_iff_matches (proper : grammar.Proper) (active : List (Nat × Nat))
    (id start stop : Nat) :
    stop ∈ (grammar.ends message active id start).places ↔
      grammar.Matches message active [id] start stop := by
  induction active, id, start using ends.induct grammar message generalizing stop with
  | case1 active id start within missing =>
    have lone : ¬ grammar.Matches message active [id] start stop := by
      rintro (_ | ⟨found, _, _⟩ | ⟨found, _, _, _, _⟩) <;> simp [missing] at found
    rw [ends]
    simp only [within, ↓reduceDIte]
    split <;> simp_all
  | case2 active id start within byte found =>
    rw [Matches.terminal_iff found, ends]
    simp only [within, ↓reduceDIte]
    split <;> simp_all
  | case3 active id start within alternatives found old =>
    rw [Matches.choice_iff found, ends]
    simp only [within, ↓reduceDIte]
    split <;> simp_all
  | case4 active id start within alternatives found fresh ih =>
    rw [Matches.choice_iff found, places_of_choice within found fresh,
      Reached.mem_amongst fun part place stop => ih _ rfl part place stop]
    simp only [fresh, not_false_eq_true, true_and]
  | case5 active id start outside =>
    have lone : ¬ grammar.Matches message active [id] start stop := fun matched =>
      outside (by have bounds := (matched.bounds proper).2 (by simp); omega)
    rw [ends]
    simp only [outside, ↓reduceDIte, List.not_mem_nil, lone]

private theorem extract_append (message : Array UInt8) {start middle stop : Nat}
    (early : start ≤ middle) (late : middle ≤ stop) :
    (message.extract start middle).toList ++ (message.extract middle stop).toList =
      (message.extract start stop).toList := by
  rw [← Array.toList_append, Array.extract_append_extract, Nat.min_eq_left early,
    Nat.max_eq_right late]

private theorem extract_single {start : Nat} {byte : UInt8} (read : message[start]? = some byte) :
    (message.extract start (start + 1)).toList = [byte] := by
  obtain ⟨within, rfl⟩ := Array.getElem?_eq_some_iff.mp read
  rw [Array.extract_succ_right (by omega) within, Array.extract_eq_empty_of_le (by omega)]
  rfl

/-- A match below active rules is a derivation that is direct below those active at its start. -/
theorem Matches.directly {active : List (Nat × Nat)} {sequence : List Nat} {start stop : Nat}
    (matched : grammar.Matches message active sequence start stop) (proper : grammar.Proper)
    {barred : List Nat} (known : ∀ id ∈ barred, (id, start) ∈ active) :
    grammar.DerivesDirectly barred sequence (message.extract start stop).toList := by
  induction matched generalizing barred with
  | nil => simpa using DerivesDirectly.nil
  | terminal found read rest ih =>
    have after := (rest.bounds proper).1
    rw [← extract_append message (Nat.le_add_right _ 1) after, extract_single read]
    exact .terminal found (ih (by simp))
  | choice found fresh member inside rest inner outer =>
    rw [← extract_append message (inside.bounds proper).1 (rest.bounds proper).1]
    refine .choice found (fun old => fresh (known _ old)) member (inner ?_) (outer (by simp))
    intro id old
    rcases List.mem_cons.mp old with rfl | old
    · exact List.mem_cons_self
    · exact List.mem_cons_of_mem _ (known id old)

/-- A direct derivation of bytes that stand in the message matches there, below active rules that are
barred or were entered before. -/
theorem DerivesDirectly.matches {barred sequence : List Nat} {bytes after : List UInt8} {start : Nat}
    (direct : grammar.DerivesDirectly barred sequence bytes) (proper : grammar.Proper)
    (stands : message.toList.drop start = bytes ++ after) {active : List (Nat × Nat)}
    (known : ∀ entry ∈ active, entry.2 < start ∨ entry.2 = start ∧ entry.1 ∈ barred) :
    grammar.Matches message active sequence start (start + bytes.length) := by
  induction direct generalizing start after active with
  | nil => exact .nil
  | @terminal _ _ byte _ others found _ ih =>
    have read : message[start]? = some byte := by
      rw [← Array.getElem?_toList, ← List.head?_drop, stands, List.cons_append, List.head?_cons]
    have next : message.toList.drop (start + 1) = others ++ after := by
      rw [← List.tail_drop, stands, List.cons_append, List.tail_cons]
    have rest : grammar.Matches message active _ (start + 1) _ :=
      ih next fun entry old => .inl (by have := known entry old; omega)
    rw [List.length_cons, Nat.add_comm _ 1, ← Nat.add_assoc]
    exact .terminal found read rest
  | @choice barred id alternatives alternative _ first others found fresh member inside _ inner outer =>
    have filled : 0 < first.length := List.length_pos_of_ne_nil <|
      inside.derives.ne_nil proper fun empty => proper id alternatives found (empty ▸ member)
    have next : message.toList.drop (start + first.length) = others ++ after := by
      rw [← List.drop_drop, stands, List.append_assoc, List.drop_left]
    rw [List.length_append, ← Nat.add_assoc]
    refine .choice found ?_ member (inner (by rw [stands, List.append_assoc]) ?_) (outer next ?_)
    · intro old
      rcases known _ old with earlier | ⟨_, barring⟩
      · omega
      · exact fresh barring
    · intro entry old
      rcases List.mem_cons.mp old with rfl | old
      · exact .inr ⟨rfl, List.mem_cons_self⟩
      · exact (known entry old).imp_right fun here => ⟨here.1, List.mem_cons_of_mem _ here.2⟩
    · intro entry old
      have := known entry old
      exact .inl (by omega)

/-- Below no active rule the matcher ends where a direct derivation ends. -/
theorem mem_ends_iff_directly (proper : grammar.Proper) (id start stop : Nat) :
    stop ∈ (grammar.ends message [] id start).places ↔ start < stop ∧ stop ≤ message.size ∧
      grammar.DerivesDirectly [] [id] (message.extract start stop).toList := by
  rw [mem_ends_iff_matches proper]
  constructor
  · intro matched
    obtain ⟨longer, within⟩ := (matched.bounds proper).2 (by simp)
    exact ⟨longer, within, matched.directly proper (by simp)⟩
  · rintro ⟨longer, within, direct⟩
    have stands : message.toList.drop start = (message.extract start stop).toList ++
        (message.toList.drop start).drop (stop - start) := by
      rw [Array.toList_extract, List.extract_eq_take_drop, List.take_append_drop]
    have length : start + (message.extract start stop).toList.length = stop := by simp; omega
    have matched : grammar.Matches message [] [id] start _ := direct.matches proper stands (by simp)
    rwa [length] at matched

/-- Accepting a message is deriving it directly. -/
theorem accepts_iff_directly (proper : grammar.Proper) (message : Text) :
    grammar.accepts message = true ↔ grammar.DerivesDirectly [] [0] (bytes message) := by
  have whole : ((bytes message).toArray.extract 0 (bytes message).toArray.size).toList =
      bytes message := by rw [Array.extract_size]
  rw [accepts, List.contains_iff_mem, mem_ends_iff_directly proper, whole]
  constructor
  · rintro ⟨_, _, direct⟩
    exact direct
  · intro direct
    have filled := direct.derives.ne_nil proper (by simp)
    exact ⟨List.length_pos_of_ne_nil filled, Nat.le_refl _, direct⟩

/-- Without left recursion being derived is being derived directly. -/
theorem directly_iff_derives (acyclic : ∀ rule, ¬ grammar.LeftRecursive rule) {sequence : List Nat}
    {string : List UInt8} :
    grammar.DerivesDirectly [] sequence string ↔ grammar.Derives sequence string :=
  ⟨DerivesDirectly.derives, fun derived => derived.directly acyclic (by simp)⟩

/-- The rules `0: 1 0 | 1` and `1: "a"`, of which the first one comes back at the right end. -/
def rightLoop : Grammar := ⟨[(1, .terminal 97), (0, .choice [[1, 0], [1]])]⟩

private theorem rightLoop_choice {id : Nat} {alternatives : List (List Nat)}
    (found : rightLoop.rule? id = some (.choice alternatives)) :
    id = 0 ∧ alternatives = [[1, 0], [1]] := by
  have member := mem_rules_of_rule? found
  simpa [rightLoop] using member

private theorem rightLoop_proper : rightLoop.Proper := by
  intro id alternatives found
  obtain ⟨-, rfl⟩ := rightLoop_choice found
  decide

private theorem rightLoop_acyclic (rule : Nat) : ¬ rightLoop.LeftRecursive rule := by
  have starts {id part : Nat} (step : rightLoop.StartsWith id part) : id = 0 ∧ part = 1 := by
    obtain ⟨alternatives, rest, found, member⟩ := step
    obtain ⟨rfl, rfl⟩ := rightLoop_choice found
    simp at member
    omega
  intro cycle
  obtain ⟨next, first, _⟩ := Relation.TransGen.head'_iff.mp cycle
  obtain ⟨previous, _, last⟩ := Relation.TransGen.tail'_iff.mp cycle
  have := starts first
  have := starts last
  omega

/-- A match leaves the active rules as it found them, and it ends only where the rule derives the bytes
it consumed, of which there is at least one. Where no rule is left recursive and none is active, it
ends at every such place. -/
theorem ends_sound_and_exact (proper : grammar.Proper) (message : Array UInt8)
    (active : List (Nat × Nat)) (id start : Nat) :
    (grammar.ends message active id start).active = active ∧
    (∀ stop ∈ (grammar.ends message active id start).places, start < stop ∧ stop ≤ message.size ∧
      grammar.Derives [id] (message.extract start stop).toList) ∧
    ((∀ rule, ¬ grammar.LeftRecursive rule) → ∀ stop,
      stop ∈ (grammar.ends message [] id start).places ↔ start < stop ∧ stop ≤ message.size ∧
        grammar.Derives [id] (message.extract start stop).toList) := by
  refine ⟨(grammar.ends message active id start).kept, ?_, ?_⟩
  · intro stop member
    have matched := (mem_ends_iff_matches proper active id start stop).mp member
    obtain ⟨longer, within⟩ := (matched.bounds proper).2 (by simp)
    have direct : grammar.DerivesDirectly [] [id] _ := matched.directly proper (by simp)
    exact ⟨longer, within, direct.derives⟩
  · intro acyclic stop
    rw [mem_ends_iff_directly proper, directly_iff_derives acyclic]

theorem ends_rightLoop :
    rightLoop.Proper ∧ (∀ rule, ¬ rightLoop.LeftRecursive rule) ∧
      (rightLoop.ends #[97, 97] [(0, 1)] 0 0).active = [(0, 1)] ∧
      ∀ stop, stop ∈ (rightLoop.ends #[97, 97] [] 0 0).places ↔ 0 < stop ∧ stop ≤ 2 ∧
        rightLoop.Derives [0] ((#[97, 97] : Array UInt8).extract 0 stop).toList :=
  have all := ends_sound_and_exact rightLoop_proper #[97, 97] [(0, 1)] 0 0
  ⟨rightLoop_proper, rightLoop_acyclic, all.1, all.2.2 rightLoop_acyclic⟩

/-- A grammar that is read accepts a message exactly when rule 0 derives it steadily. Without left
recursion it accepts all that rule 0 derives. -/
theorem accepts_iff_derivesSteadily {text : Text} {inbox : Inbox} (parsed : parse text = .ok inbox)
    (message : Text) :
    (inbox.grammar.accepts message = true ↔
      inbox.grammar.DerivesSteadily [] [0] (bytes message)) ∧
    ((∀ rule, ¬ inbox.grammar.LeftRecursive rule) → (inbox.grammar.accepts message = true ↔
      inbox.grammar.Derives [0] (bytes message))) := by
  have proper := proper_of_parse parsed
  refine ⟨?_, fun acyclic => ?_⟩
  · rw [accepts_iff_directly proper, directly_iff_steadily]
  · rw [accepts_iff_directly proper, directly_iff_derives acyclic]

theorem accepts_rightLoop :
    ∃ inbox, parse "0: 1 0 | 1\n1: \"a\"\n\naa".toList = .ok inbox ∧
      (∀ rule, ¬ inbox.grammar.LeftRecursive rule) ∧
      (inbox.grammar.accepts ['a', 'a'] = true ↔
        inbox.grammar.DerivesSteadily [] [0] (bytes ['a', 'a'])) ∧
      (inbox.grammar.accepts ['a', 'a'] = true ↔
        inbox.grammar.Derives [0] (bytes ['a', 'a'])) :=
  have parsed : parse "0: 1 0 | 1\n1: \"a\"\n\naa".toList = .ok ⟨rightLoop, [['a', 'a']]⟩ := by rfl
  have both := accepts_iff_derivesSteadily parsed ['a', 'a']
  ⟨_, parsed, rightLoop_acyclic, both.1, both.2 rightLoop_acyclic⟩

/-- The rules `0: 0 1 | 1` and `1: "a"`, of which the first one is left recursive. -/
def leftLoop : Grammar := ⟨[(1, .terminal 97), (0, .choice [[0, 1], [1]])]⟩

/-- Rule 0 derives two bytes only by a way round that derives the first one of them. -/
theorem not_accepts_leftRecursive :
    ∃ inbox, parse "0: 0 1 | 1\n1: \"a\"\n\naa".toList = .ok inbox ∧
      inbox.grammar.Derives [0] (bytes ['a', 'a']) ∧
      inbox.grammar.accepts ['a', 'a'] = false := by
  refine ⟨⟨leftLoop, [['a', 'a']]⟩, by rfl, ?_, by decide +kernel⟩
  have single : leftLoop.Derives [1] [97] := .terminal rfl .nil
  have double : leftLoop.Derives [0, 1] [97, 97] :=
    .choice rfl (by simp : [1] ∈ [[0, 1], [1]]) single single
  have derived : leftLoop.Derives [0] [97, 97] :=
    .choice rfl (by simp : [0, 1] ∈ [[0, 1], [1]]) double .nil
  exact derived

end Grammar

end PuzzleCalendar.MessageGrammar
