import Mathlib.Logic.Relation
import PuzzleCalendar.Puzzles.MessageGrammar

/-! # Derivations of a message grammar

A sequence of rules derives a string of bytes in the ordinary way: a terminal derives its byte, a
choice derives what one of its alternatives derives, and a sequence derives the strings of its rules
one after the other. Two smaller relations look at rules that come back at the left end of what they
derive. A derivation is direct when none does. It is steady when a rule that does derives the same
string again, so that the way round derived nothing. A steady derivation can leave out every way round
and become direct, and in a grammar without left recursion every derivation is direct.
-/

namespace PuzzleCalendar.MessageGrammar

namespace Grammar

/-- The rules of `sequence` derive a string one after the other. -/
inductive Derives (grammar : Grammar) : List Nat → List UInt8 → Prop
  | nil : Derives grammar [] []
  | terminal {id : Nat} {byte : UInt8} {sequence : List Nat} {others : List UInt8}
      (found : grammar.rule? id = some (.terminal byte))
      (rest : Derives grammar sequence others) : Derives grammar (id :: sequence) (byte :: others)
  | choice {id : Nat} {alternatives : List (List Nat)} {alternative sequence : List Nat}
      {first others : List UInt8} (found : grammar.rule? id = some (.choice alternatives))
      (member : alternative ∈ alternatives) (inside : Derives grammar alternative first)
      (rest : Derives grammar sequence others) :
      Derives grammar (id :: sequence) (first ++ others)

/-- A derivation in which no rule comes back at the left end of what it derives. `barred` are the
choices whose string starts where the sequence starts. -/
inductive DerivesDirectly (grammar : Grammar) : List Nat → List Nat → List UInt8 → Prop
  | nil {barred : List Nat} : DerivesDirectly grammar barred [] []
  | terminal {barred : List Nat} {id : Nat} {byte : UInt8} {sequence : List Nat}
      {others : List UInt8} (found : grammar.rule? id = some (.terminal byte))
      (rest : DerivesDirectly grammar [] sequence others) :
      DerivesDirectly grammar barred (id :: sequence) (byte :: others)
  | choice {barred : List Nat} {id : Nat} {alternatives : List (List Nat)}
      {alternative sequence : List Nat} {first others : List UInt8}
      (found : grammar.rule? id = some (.choice alternatives)) (fresh : id ∉ barred)
      (member : alternative ∈ alternatives)
      (inside : DerivesDirectly grammar (id :: barred) alternative first)
      (rest : DerivesDirectly grammar [] sequence others) :
      DerivesDirectly grammar barred (id :: sequence) (first ++ others)

/-- A derivation in which a rule that comes back at the left end of what it derives derives the same
string there. `opened` are the choices whose string starts where the sequence starts, each with its
string. -/
inductive DerivesSteadily (grammar : Grammar) :
    List (Nat × List UInt8) → List Nat → List UInt8 → Prop
  | nil {opened : List (Nat × List UInt8)} : DerivesSteadily grammar opened [] []
  | terminal {opened : List (Nat × List UInt8)} {id : Nat} {byte : UInt8} {sequence : List Nat}
      {others : List UInt8} (found : grammar.rule? id = some (.terminal byte))
      (rest : DerivesSteadily grammar [] sequence others) :
      DerivesSteadily grammar opened (id :: sequence) (byte :: others)
  | choice {opened : List (Nat × List UInt8)} {id : Nat} {alternatives : List (List Nat)}
      {alternative sequence : List Nat} {first others : List UInt8}
      (found : grammar.rule? id = some (.choice alternatives))
      (steady : ∀ outer, (id, outer) ∈ opened → outer = first)
      (member : alternative ∈ alternatives)
      (inside : DerivesSteadily grammar ((id, first) :: opened) alternative first)
      (rest : DerivesSteadily grammar [] sequence others) :
      DerivesSteadily grammar opened (id :: sequence) (first ++ others)

/-- One of the alternatives of a choice starts with a rule. -/
def StartsWith (grammar : Grammar) (id part : Nat) : Prop :=
  ∃ alternatives rest, grammar.rule? id = some (.choice alternatives) ∧ part :: rest ∈ alternatives

/-- One of the alternatives of a choice has a rule in it. -/
def Mentions (grammar : Grammar) (id part : Nat) : Prop :=
  ∃ alternatives alternative, grammar.rule? id = some (.choice alternatives) ∧
    alternative ∈ alternatives ∧ part ∈ alternative

/-- A rule reaches itself at the left end. -/
def LeftRecursive (grammar : Grammar) (id : Nat) : Prop :=
  Relation.TransGen grammar.StartsWith id id

/-- No choice has an empty alternative. -/
def Proper (grammar : Grammar) : Prop :=
  ∀ id alternatives, grammar.rule? id = some (.choice alternatives) → [] ∉ alternatives

variable {grammar : Grammar} {sequence : List Nat} {bytes : List UInt8}

theorem Derives.ne_nil (derived : grammar.Derives sequence bytes) (proper : grammar.Proper)
    (nonempty : sequence ≠ []) : bytes ≠ [] := by
  induction derived with
  | nil => exact absurd rfl nonempty
  | terminal => simp
  | choice found member _ _ inner _ =>
    have filled := inner fun empty => proper _ _ found (empty ▸ member)
    simp [filled]

theorem DerivesDirectly.derives {barred : List Nat}
    (direct : grammar.DerivesDirectly barred sequence bytes) : grammar.Derives sequence bytes := by
  induction direct with
  | nil => exact .nil
  | terminal found _ ih => exact .terminal found ih
  | choice found _ member _ _ inner outer => exact .choice found member inner outer

/-- Barring fewer rules keeps a derivation direct. -/
theorem DerivesDirectly.mono {barred fewer : List Nat} (subset : fewer ⊆ barred)
    (direct : grammar.DerivesDirectly barred sequence bytes) :
    grammar.DerivesDirectly fewer sequence bytes := by
  induction direct generalizing fewer with
  | nil => exact .nil
  | terminal found rest => exact .terminal found rest
  | choice found fresh member _ rest inner =>
    exact .choice found (fun old => fresh (subset old)) member
      (inner (List.cons_subset_cons _ subset)) rest

theorem StartsWith.mentions {id part : Nat} (starts : grammar.StartsWith id part) :
    grammar.Mentions id part := by
  obtain ⟨alternatives, rest, found, member⟩ := starts
  exact ⟨alternatives, part :: rest, found, member, List.mem_cons_self⟩

/-- Where no rule of a closed set is left recursive a derivation from that set is direct, below every list
of rules that reach the head of the sequence at the left end. -/
theorem Derives.directly_within (within : Nat → Prop)
    (closed : ∀ id part, within id → grammar.Mentions id part → within part)
    (acyclic : ∀ id, within id → ¬ grammar.LeftRecursive id)
    (derived : grammar.Derives sequence bytes) (all : ∀ id ∈ sequence, within id) {barred : List Nat}
    (above : ∀ rule ∈ barred, ∀ head ∈ sequence.head?,
      Relation.TransGen grammar.StartsWith rule head) :
    grammar.DerivesDirectly barred sequence bytes := by
  induction derived generalizing barred with
  | nil => exact .nil
  | terminal found _ ih => exact .terminal found (ih (List.forall_mem_cons.mp all).2 (by simp))
  | @choice id alternatives alternative _ _ _ found member _ _ inner outer =>
    obtain ⟨inside, others⟩ := List.forall_mem_cons.mp all
    have fresh : id ∉ barred := fun old => acyclic id inside (above id old id rfl)
    have parts : ∀ part ∈ alternative, within part := fun part listed =>
      closed id part inside ⟨alternatives, alternative, found, member, listed⟩
    refine .choice found fresh member (inner parts ?_) (outer others (by simp))
    intro rule known head first
    obtain ⟨rest, rfl⟩ := List.head?_eq_some_iff.mp (Option.mem_def.mp first)
    have step : grammar.StartsWith id head := ⟨alternatives, rest, found, member⟩
    rcases List.mem_cons.mp known with rfl | old
    · exact .single step
    · exact (above rule old id rfl).tail step

/-- Where no rule is left recursive a derivation is direct, below every list of rules that reach the
head of the sequence at the left end. -/
theorem Derives.directly (acyclic : ∀ id, ¬ grammar.LeftRecursive id)
    (derived : grammar.Derives sequence bytes) {barred : List Nat}
    (above : ∀ rule ∈ barred, ∀ head ∈ sequence.head?,
      Relation.TransGen grammar.StartsWith rule head) :
    grammar.DerivesDirectly barred sequence bytes :=
  derived.directly_within (fun _ => True) (by simp) (fun id _ => acyclic id) (by simp) above

theorem DerivesDirectly.steadily {barred : List Nat}
    (direct : grammar.DerivesDirectly barred sequence bytes) {opened : List (Nat × List UInt8)}
    (known : ∀ entry ∈ opened, entry.1 ∈ barred) :
    grammar.DerivesSteadily opened sequence bytes := by
  induction direct generalizing opened with
  | nil => exact .nil
  | terminal found _ ih => exact .terminal found (ih (by simp))
  | choice found fresh member _ _ inner outer =>
    refine .choice found (fun outer old => absurd (known _ old) fresh) member (inner ?_)
      (outer (by simp))
    intro entry old
    rcases List.mem_cons.mp old with rfl | old
    · exact List.mem_cons_self
    · exact List.mem_cons_of_mem _ (known entry old)

/-- The last of the entries of a rule. -/
private theorem exists_outermost {opened : List (Nat × List UInt8)} {id : Nat}
    (known : id ∈ opened.map Prod.fst) :
    ∃ inner string outer, opened = inner ++ (id, string) :: outer ∧ id ∉ outer.map Prod.fst := by
  induction opened with
  | nil => simp at known
  | cons entry rest ih =>
    by_cases later : id ∈ rest.map Prod.fst
    · obtain ⟨inner, string, outer, rfl, last⟩ := ih later
      exact ⟨entry :: inner, string, outer, rfl, last⟩
    · obtain rfl | old := List.mem_cons.mp known
      · exact ⟨[], entry.2, rest, rfl, later⟩
      · exact absurd old later

/-- The rules of a sequence after the first one start at a later byte. -/
private theorem DerivesDirectly.cons {barred : List Nat} {id : Nat} {first others : List UInt8}
    (head : grammar.DerivesDirectly barred [id] first)
    (rest : grammar.DerivesDirectly [] sequence others) :
    grammar.DerivesDirectly barred (id :: sequence) (first ++ others) := by
  cases head with
  | terminal found none =>
    cases none
    exact .terminal found rest
  | choice found fresh member inside none =>
    cases none
    rw [List.append_nil]
    exact .choice found fresh member inside rest

/-- Either nothing came back, or a rule that did derives its string directly, below the choices that
were open before it was. -/
private theorem DerivesSteadily.shorten {opened : List (Nat × List UInt8)}
    (steady : grammar.DerivesSteadily opened sequence bytes) :
    grammar.DerivesDirectly (opened.map Prod.fst) sequence bytes ∨
      ∃ inner id string outer, opened = inner ++ (id, string) :: outer ∧
        grammar.DerivesDirectly (outer.map Prod.fst) [id] string := by
  induction steady with
  | nil => exact .inl .nil
  | terminal found _ ih =>
    obtain direct | ⟨inner, _, _, _, none, _⟩ := ih
    · exact .inl (.terminal found direct)
    · exact absurd none (by simp)
  | @choice opened id alternatives alternative sequence first others found same member _ _ within after =>
    have rest : grammar.DerivesDirectly [] sequence others := by
      obtain direct | ⟨inner, _, _, _, none, _⟩ := after
      · exact direct
      · exact absurd none (by simp)
    obtain direct | ⟨inner, back, string, outer, split, direct⟩ := within
    · by_cases known : id ∈ opened.map Prod.fst
      · obtain ⟨inner, string, outer, rfl, last⟩ := exists_outermost known
        obtain rfl := same string (by simp)
        have below : grammar.DerivesDirectly (id :: outer.map Prod.fst) alternative string :=
          direct.mono (List.cons_subset_cons _ (by simp))
        refine .inr ⟨inner, id, string, outer, rfl, ?_⟩
        simpa using DerivesDirectly.choice found last member below .nil
      · exact .inl (.choice found known member direct rest)
    · -- The way round that came back belongs to this choice or to one that was open before.
      cases inner with
      | nil =>
        obtain ⟨⟨rfl, rfl⟩, rfl⟩ : (id = back ∧ first = string) ∧ opened = outer := by
          simpa using split
        exact .inl (direct.cons rest)
      | cons entry inner =>
        exact .inr ⟨inner, back, string, outer, (List.cons.inj split).2, direct⟩

/-- Leaving out the ways round makes a steady derivation direct. -/
theorem directly_iff_steadily :
    grammar.DerivesDirectly [] sequence bytes ↔ grammar.DerivesSteadily [] sequence bytes := by
  constructor
  · intro direct
    exact direct.steadily (by simp)
  · intro steady
    obtain direct | ⟨inner, _, _, _, none, _⟩ := steady.shorten
    · exact direct
    · exact absurd none (by simp)

end Grammar

/-- A rule that is read has no empty alternative. -/
theorem nil_notMem_of_readBody {id : Nat} {body : Text} {alternatives : List (List Nat)}
    (read : readBody id body = .ok (.choice alternatives)) : [] ∉ alternatives := by
  unfold readBody at read
  split at read
  · split at read <;> simp at read
  · obtain ⟨found, _, checked⟩ := bind_eq_ok_iff.mp read
    split at checked
    · simp at checked
    · rename_i filled
      obtain rfl : found = alternatives := by simpa [pure, Except.pure] using checked
      simpa using filled

theorem nil_notMem_of_readRule {line : Text} {id : Nat} {alternatives : List (List Nat)}
    (read : readRule line = .ok (id, .choice alternatives)) : [] ∉ alternatives := by
  unfold readRule at read
  split at read
  · simp at read
  · obtain ⟨number, _, read⟩ := bind_eq_ok_iff.mp read
    obtain ⟨rule, body, same⟩ := bind_eq_ok_iff.mp read
    obtain ⟨-, rfl⟩ : number = id ∧ rule = .choice alternatives := by
      simpa [pure, Except.pure] using same
    exact nil_notMem_of_readBody body

/-- A grammar that is read is proper. -/
theorem proper_of_parse {text : Text} {inbox : Inbox} (parsed : parse text = .ok inbox) :
    inbox.grammar.Proper := by
  have parsed := Outcome.ofExcept_eq_ok_iff.mp parsed
  split at parsed
  · simp at parsed
  · obtain ⟨rules, collected, parsed⟩ := bind_eq_ok_iff.mp parsed
    intro id alternatives found
    dsimp only at parsed
    split at parsed
    · simp at parsed
    · obtain rfl : Inbox.mk ⟨rules.reverse⟩ _ = inbox := by simpa [pure, Except.pure] using parsed
      have member : (id, .choice alternatives) ∈ rules := by
        simpa using Grammar.mem_rules_of_rule? found
      obtain ⟨line, -, read⟩ := Input.exists_line_of_mem_collect collected member
      exact nil_notMem_of_readRule (mapError_eq_ok_iff.mp read)

end PuzzleCalendar.MessageGrammar
