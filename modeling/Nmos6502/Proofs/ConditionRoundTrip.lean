import Nmos6502.Proofs.ConditionShape
import Nmos6502.Proofs.ConditionText

/-!
The texts of conditions read again. The text of a plain condition has a derivation with the
condition's depth; and what is read from the text of any condition takes in all of it, so that
every part of the condition is plain and no part is nested too deeply.
-/

namespace Nmos6502

def Term.ownName (term : Term) : TermName where
  text := term.text
  term := term
  known := by
    cases term with
    | flag named => cases named <;> decide +kernel
    | _ => decide +kernel

namespace Condition

open Lexeme (scan Cuts Stops)

theorem stops_closing (tail : List Char) : Stops (')' :: tail) := by
  simp [Stops]

theorem stops_blank (tail : List Char) : Stops (' ' :: tail) := by
  simp [Stops]

structure Transcribes (condition : Condition) (derivation : Grammar.Part) : Prop where
  collapsed : derivation.condition = condition.collapse
  nested : derivation.nesting = condition.depth
  cuts : ∀ {tail}, Stops tail → Cuts condition.text.toList derivation.tokens tail

section

variable {part : Condition} {rest : List Condition}

theorem exists_allOf_transcribes
    (each : ∀ other ∈ part :: rest, ∃ derivation, Transcribes other derivation) :
    ∃ derivation : Grammar.AllOf, derivation.conditions = collapseEach (part :: rest) ∧
      derivation.nesting = deepest (part :: rest) ∧ ∀ {tail}, Stops tail →
        Cuts (joined " && " (part :: rest)).toList derivation.tokens tail := by
  induction rest generalizing part with
  | nil =>
      obtain ⟨first, transcribes⟩ := each part (List.mem_cons_self ..)
      refine ⟨.only first, ?_, ?_, ?_⟩
      · rw [Grammar.AllOf.conditions, transcribes.collapsed, collapseEach, collapseEach]
      · rw [Grammar.AllOf.nesting, transcribes.nested, deepest, deepest, Nat.max_zero]
      · exact transcribes.cuts
  | cons next rest ih =>
      obtain ⟨first, transcribes⟩ := each part (List.mem_cons_self ..)
      obtain ⟨others, collapsed, nested, cuts⟩ :=
        ih fun other member => each other (List.mem_cons_of_mem _ member)
      refine ⟨.both first others, ?_, ?_, ?_⟩
      · simp only [Grammar.AllOf.conditions, transcribes.collapsed, collapsed, collapseEach]
      · simp only [Grammar.AllOf.nesting, transcribes.nested, nested, deepest]
      · intro tail stops
        have more := (Lexeme.cuts_both _).append (cuts stops)
        have joinedCuts := (transcribes.cuts (stops_blank _)).append more
        simpa [joined, Grammar.AllOf.tokens] using joinedCuts

theorem exists_anyOf_transcribes
    (each : ∀ other ∈ part :: rest, ∃ derivation, Transcribes other derivation) :
    ∃ derivation : Grammar.AnyOf, derivation.conditions = collapseEach (part :: rest) ∧
      derivation.nesting = deepest (part :: rest) ∧ ∀ {tail}, Stops tail →
        Cuts (joined " || " (part :: rest)).toList derivation.tokens tail := by
  induction rest generalizing part with
  | nil =>
      obtain ⟨first, transcribes⟩ := each part (List.mem_cons_self ..)
      refine ⟨.only (.only first), ?_, ?_, ?_⟩
      · simp only [Grammar.AnyOf.conditions, Grammar.AllOf.conditions, gather,
          transcribes.collapsed, collapseEach]
      · rw [Grammar.AnyOf.nesting, Grammar.AllOf.nesting, transcribes.nested, deepest, deepest,
          Nat.max_zero]
      · exact transcribes.cuts
  | cons next rest ih =>
      obtain ⟨first, transcribes⟩ := each part (List.mem_cons_self ..)
      obtain ⟨others, collapsed, nested, cuts⟩ :=
        ih fun other member => each other (List.mem_cons_of_mem _ member)
      refine ⟨.either (.only first) others, ?_, ?_, ?_⟩
      · simp only [Grammar.AnyOf.conditions, Grammar.AllOf.conditions, gather,
          transcribes.collapsed, collapsed, collapseEach]
      · simp only [Grammar.AnyOf.nesting, Grammar.AllOf.nesting, transcribes.nested, nested,
          deepest]
      · intro tail stops
        have more := (Lexeme.cuts_either _).append (cuts stops)
        have joinedCuts := (transcribes.cuts (stops_blank _)).append more
        simpa [joined, Grammar.AnyOf.tokens, Grammar.AllOf.tokens] using joinedCuts

end

theorem Cuts.enclosed {text : List Char} {tokens : List Token} {tail : List Char}
    (cuts : Cuts text tokens (')' :: tail)) :
    Cuts ('(' :: (text ++ [')'])) (.opening :: (tokens ++ [.closing])) tail :=
  (Lexeme.cuts_opening _).append (Lexeme.Cuts.append cuts (Lexeme.cuts_closing tail))

theorem Plain.exists_transcribes {condition : Condition} (plain : condition.Plain) :
    ∃ derivation, Transcribes condition derivation := by
  induction plain with
  | @compare term comparison value =>
      exact ⟨.compared term.ownName comparison value, rfl, rfl,
        Lexeme.cuts_compare term comparison value⟩
  | @all parts some plain each =>
      obtain ⟨part, rest, rfl⟩ := List.exists_cons_of_ne_nil some
      obtain ⟨inner, collapsed, nested, cuts⟩ := exists_allOf_transcribes each
      refine ⟨.enclosed (.only inner), ?_, ?_, ?_⟩
      · simp only [Grammar.Part.condition, Grammar.AnyOf.conditions, gather, collapsed, collapse]
      · simp only [Grammar.Part.nesting, Grammar.AnyOf.nesting, nested, depth]
        omega
      · intro tail _
        have enclosed := Cuts.enclosed (cuts (stops_closing tail))
        simpa [text, Grammar.Part.tokens, Grammar.AnyOf.tokens] using enclosed
  | @any parts some plain each =>
      obtain ⟨part, rest, rfl⟩ := List.exists_cons_of_ne_nil some
      obtain ⟨inner, collapsed, nested, cuts⟩ := exists_anyOf_transcribes each
      refine ⟨.enclosed inner, ?_, ?_, ?_⟩
      · simp only [Grammar.Part.condition, collapsed, collapse]
      · simp only [Grammar.Part.nesting, nested, depth]
        omega
      · intro tail _
        have enclosed := Cuts.enclosed (cuts (stops_closing tail))
        simpa [text, Grammar.Part.tokens, Grammar.AnyOf.tokens] using enclosed
  | @not part plain transcribed =>
      obtain ⟨inner, transcribes⟩ := transcribed
      -- What is negated stands in brackets, as the only part of both lists.
      refine ⟨.negated (.enclosed (.only (.only inner))), ?_, ?_, ?_⟩
      · simp only [Grammar.Part.condition, Grammar.AnyOf.conditions, Grammar.AllOf.conditions,
          gather, transcribes.collapsed, collapse]
      · simp only [Grammar.Part.nesting, Grammar.AnyOf.nesting, Grammar.AllOf.nesting,
          transcribes.nested, depth]
        omega
      · intro tail _
        have enclosed := Cuts.enclosed (transcribes.cuts (stops_closing tail))
        have negated := (Lexeme.cuts_negation _).append enclosed
        simpa [text, Grammar.Part.tokens, Grammar.AnyOf.tokens, Grammar.AllOf.tokens] using negated

theorem parse_text_of_plain {condition : Condition} (plain : condition.Plain)
    (shallow : condition.depth ≤ 64) : parse condition.text = .ok condition.collapse := by
  obtain ⟨derivation, transcribes⟩ := plain.exists_transcribes
  have derives : (Grammar.AnyOf.only (.only derivation)).Derives condition.text := by
    refine ⟨(transcribes.cuts (by simp [Stops])).scan_all, ?_⟩
    rwa [Grammar.AnyOf.nesting, Grammar.AllOf.nesting, transcribes.nested]
  rw [parse_of_derives derives, ← transcribes.collapsed]
  rfl

/-- What comes after a text: it stops numerals, and if it has tokens, the first is one of some. -/
structure Ends (tokens : List Token) (tail : List Char) : Prop where
  stops : Stops tail
  follows : ∀ {offset rest}, scan offset tail = .ok rest → Follows tokens rest

theorem Ends.mono {few many : List Token} {tail : List Char} (ends : Ends few tail)
    (subset : few ⊆ many) : Ends many tail :=
  ⟨ends.stops, fun scanned => (ends.follows scanned).mono subset⟩

theorem ends_of_cuts {text tail : List Char} {token : Token} (stops : Stops (text ++ tail))
    (cuts : Cuts text [token] tail) : Ends [token] (text ++ tail) := by
  refine ⟨stops, fun scanned => ?_⟩
  obtain ⟨rest, _, _, spells⟩ := cuts.spells scanned
  obtain ⟨offset, later, rfl, _⟩ := spells_cons_iff.mp spells
  exact follows_cons offset later (List.mem_singleton_self _)

theorem ends_closing (tail : List Char) : Ends [.closing] (')' :: tail) :=
  ends_of_cuts (stops_closing tail) (Lexeme.cuts_closing tail)

theorem ends_nil {tokens : List Token} : Ends tokens [] := by
  refine ⟨by simp [Stops], fun scanned => ?_⟩
  rw [scan, Except.ok.injEq] at scanned
  simp [← scanned, Follows]

/-- Where a reading takes anything from a text in front of such an end, it takes all of the
text, and a property holds. -/
def TakesAll (item : Reading Condition) (tokens : List Token) (text : List Char)
    (property : Prop) : Prop :=
  ∀ ⦃offset tail lexemes value rest⦄, Ends tokens tail → scan offset (text ++ tail) = .ok lexemes →
    Takes item lexemes value rest → property ∧ ∃ after, scan after tail = .ok rest

section

variable {ending levels : Nat} {item : Reading Condition} {tokens : List Token} {separator : Token}
  {combine : List Condition → Condition} {text : List Char} {property : Prop}

theorem TakesAll.imp {weaker : Prop} (all : TakesAll item tokens text property)
    (weakens : property → weaker) : TakesAll item tokens text weaker := by
  intro offset tail lexemes value rest ends scanned takes
  have read := all ends scanned takes
  exact ⟨weakens read.1, read.2⟩

theorem TakesAll.mono {few : List Token} (all : TakesAll item tokens text property)
    (subset : few ⊆ tokens) : TakesAll item few text property :=
  fun _ _ _ _ _ ends scanned takes => all (ends.mono subset) scanned takes

theorem TakesAll.gathered (all : TakesAll item tokens text property)
    (foreign : separator ∉ tokens) :
    TakesAll (gathered separator combine item) tokens text property := by
  intro offset tail lexemes value rest ends scanned takes
  obtain ⟨parts, each, rfl⟩ := takes_gathered_iff.mp takes
  cases each with
  | last first _ => exact all ends scanned first
  | more first _ =>
      obtain ⟨_, after, later⟩ := all ends scanned first
      exact absurd rfl ((ends.follows later).apart foreign _ rfl)

theorem takesAll_joined {mark : String} {property : Condition → Prop}
    (foreign : separator ∉ tokens) (cuts : ∀ tail, Cuts mark.toList [separator] tail)
    (stops : ∀ tail, Stops (mark.toList ++ tail)) {part : Condition} {rest : List Condition}
    (each : ∀ other ∈ part :: rest,
      TakesAll item (separator :: tokens) other.text.toList (property other)) :
    TakesAll (gathered separator combine item) tokens (joined mark (part :: rest)).toList
      (∀ other ∈ part :: rest, property other) := by
  intro offset tail lexemes value left ends scanned takes
  obtain ⟨values, taken, rfl⟩ := takes_gathered_iff.mp takes
  clear takes
  have front := each part (List.mem_cons_self ..)
  -- Each part ends at a mark, up to which it is read for itself; only the last ends at the tail.
  induction rest generalizing part offset lexemes values with
  | nil =>
      have alone : TakesAll (Condition.gathered separator combine item) tokens part.text.toList
          (property part) := (front.mono (List.subset_cons_self ..)).gathered foreign
      obtain ⟨holds, read⟩ := alone ends scanned (takes_gathered_iff.mpr ⟨values, taken, rfl⟩)
      exact ⟨by simpa using holds, read⟩
  | cons next rest ih =>
      have marked : Ends (separator :: tokens)
          (mark.toList ++ ((joined mark (next :: rest)).toList ++ tail)) :=
        (ends_of_cuts (stops _) (cuts _)).mono (by simp)
      rw [joined, String.toList_append, String.toList_append, List.append_assoc,
        List.append_assoc] at scanned
      cases taken with
      | last first apart =>
          -- No reading stops at a mark that joins another part.
          obtain ⟨_, after, later⟩ := front marked scanned first
          obtain ⟨_, _, _, spells⟩ := (cuts _).spells later
          obtain ⟨_, _, rfl, _⟩ := spells_cons_iff.mp spells
          exact absurd rfl (apart _ rfl)
      | more first more =>
          obtain ⟨holds, after, later⟩ := front marked scanned first
          obtain ⟨others, _, rescanned, spells⟩ := (cuts _).spells later
          obtain rfl := spells_nil_iff.mp spells.tail
          have each := fun other member => each other (List.mem_cons_of_mem _ member)
          obtain ⟨holdsLater, read⟩ :=
            ih each rescanned _ more (each next (List.mem_cons_self ..))
          exact ⟨List.forall_mem_cons.mpr ⟨holds, holdsLater⟩, read⟩

theorem takesAll_nothing :
    TakesAll (alternatives (readPart ending levels)) [.closing] [] property := by
  intro offset tail lexemes value rest ends scanned takes
  obtain ⟨others, each, rfl⟩ := takes_gathered_iff.mp takes
  obtain ⟨_, _, firstTakes⟩ := each.exists_takes
  obtain ⟨parts, each, rfl⟩ := takes_gathered_iff.mp firstTakes
  obtain ⟨_, _, partTakes⟩ := each.exists_takes
  obtain ⟨token, _, _, rfl, starts⟩ := partTakes.starts
  have closing := ends.follows scanned _ rfl
  rcases starts with rfl | rfl | ⟨name, rfl⟩ <;> simp at closing

theorem TakesAll.enclosed {property : Nat → Prop}
    (all : ∀ fewer,
      TakesAll (alternatives (readPart ending fewer)) [.closing] text (property fewer)) :
    TakesAll (readPart ending levels) tokens ('(' :: (text ++ [')']))
      (∃ fewer, levels = fewer + 1 ∧ property fewer) := by
  intro offset tail lexemes value rest ends scanned takes
  rw [List.cons_append, List.append_assoc] at scanned
  obtain ⟨inner, _, innerScanned, spells⟩ := (Lexeme.cuts_opening _).spells scanned
  obtain ⟨_, _, rfl, nothing⟩ := spells_cons_iff.mp spells
  obtain rfl := spells_nil_iff.mp nothing
  obtain ⟨fewer, closing, rfl, taken⟩ := takes_opening_iff.mp takes
  obtain ⟨holds, _, closed⟩ := all fewer (ends_closing tail) innerScanned taken
  obtain ⟨_, after, left, spells⟩ := (Lexeme.cuts_closing _).spells closed
  obtain rfl := spells_nil_iff.mp spells.tail
  exact ⟨⟨fewer, rfl, holds⟩, after, left⟩

theorem exists_comparison_of_scan {offset : Nat} {more : List Char} {lexemes : List Lexeme}
    (scanned : scan offset ('<' :: more) = .ok lexemes) :
    ∃ comparison later, lexemes = ⟨.comparison comparison, offset⟩ :: later := by
  have read : ∃ comparison length,
      Lexeme.readToken offset '<' more = .ok (.comparison comparison, length) := by
    rcases more with _ | ⟨next, later⟩
    · exact ⟨.less, 1, rfl⟩
    · by_cases equal : next = '='
      · subst equal
        exact ⟨.atMost, 2, rfl⟩
      · exact ⟨.less, 1, by simp [Lexeme.readToken, equal]⟩
  obtain ⟨comparison, length, read⟩ := read
  obtain ⟨later, _, rfl⟩ := Lexeme.exists_of_scan_token rfl read scanned
  exact ⟨comparison, later, rfl⟩

theorem text_not (part : Condition) :
    (not part).text.toList = '!' :: ('(' :: (part.text.toList ++ [')'])) := by
  simp [text]

theorem text_all (parts : List Condition) :
    (all parts).text.toList = '(' :: ((joined " && " parts).toList ++ [')']) := by
  simp [text]

theorem text_any (parts : List Condition) :
    (any parts).text.toList = '(' :: ((joined " || " parts).toList ++ [')']) := by
  simp [text]

theorem takesAll_list {mark : String} {parts : List Condition}
    (joins : ∀ fewer part rest, parts = part :: rest →
      TakesAll (alternatives (readPart ending fewer)) [.closing] (joined mark parts).toList
        (∀ other ∈ parts, other.Plain ∧ other.depth ≤ fewer)) :
    TakesAll (readPart ending levels) tokens ('(' :: ((joined mark parts).toList ++ [')']))
      (parts ≠ [] ∧ (∀ other ∈ parts, other.Plain) ∧ 1 + deepest parts ≤ levels) := by
  rcases parts with _ | ⟨part, rest⟩
  · have nothing : TakesAll (readPart ending levels) tokens ('(' :: ([] ++ [')']))
        (∃ fewer, levels = fewer + 1 ∧ False) := .enclosed fun _ => takesAll_nothing
    exact nothing.imp fun ⟨_, _, impossible⟩ => impossible.elim
  · refine (TakesAll.enclosed fun fewer => joins fewer part rest rfl).imp ?_
    rintro ⟨fewer, rfl, read⟩
    have shallow := deepest_le_iff.mpr fun other member => (read other member).2
    exact ⟨by simp, fun other member => (read other member).1, by omega⟩

theorem takesAll_compare (ending : Nat) (term : Term) (comparison : Comparison) (value : UInt64)
    {levels : Nat} {tokens : List Token} :
    TakesAll (readPart ending levels) tokens (compare term comparison value).text.toList True := by
  intro offset tail lexemes read rest ends scanned takes
  obtain ⟨left, after, leftScanned, spells⟩ :=
    (Lexeme.cuts_compare term comparison value ends.stops).spells scanned
  obtain ⟨_, _, rfl, compares⟩ := spells_cons_iff.mp spells
  obtain ⟨_, _, rfl, numbers⟩ := spells_cons_iff.mp compares
  obtain ⟨_, _, rfl, nothing⟩ := spells_cons_iff.mp numbers
  obtain rfl := spells_nil_iff.mp nothing
  obtain ⟨_, _, compares⟩ := takes_name_iff.mp takes
  cases compares with
  | number => exact ⟨trivial, after, leftScanned⟩
  | nothing apart => exact absurd rfl (apart _ rfl _)

theorem takesAll_custom (ending : Nat) (name : String)
    (predicate : Situation → Except ConditionError Bool) {levels : Nat} {tokens : List Token} :
    TakesAll (readPart ending levels) tokens (custom name predicate).text.toList False := by
  intro offset tail lexemes read rest ends scanned takes
  -- Such a text starts with a comparison, and no part does.
  rw [text, String.toList_append, String.toList_append, List.append_assoc] at scanned
  obtain ⟨comparison, _, rfl⟩ := exists_comparison_of_scan scanned
  obtain ⟨_, _, _, same, starts⟩ := takes.starts
  cases same
  simp at starts

theorem takesAll_not {ending : Nat} {part : Condition}
    (inner : ∀ levels tokens, TakesAll (readPart ending levels) tokens part.text.toList
      (part.Plain ∧ part.depth ≤ levels)) {levels : Nat} {tokens : List Token} :
    TakesAll (readPart ending levels) tokens (not part).text.toList
      (part.Plain ∧ 2 + part.depth ≤ levels) := by
  intro offset tail lexemes read rest ends scanned takes
  rw [text_not, List.cons_append] at scanned
  obtain ⟨_, _, innerScanned, spells⟩ := (Lexeme.cuts_negation _).spells scanned
  obtain ⟨_, _, rfl, nothing⟩ := spells_cons_iff.mp spells
  obtain rfl := spells_nil_iff.mp nothing
  obtain ⟨fewer, _, rfl, _, taken⟩ := takes_negation_iff.mp takes
  -- The brackets take a level besides the one of the sign.
  have enclosed : TakesAll (readPart ending fewer) tokens ('(' :: (part.text.toList ++ [')']))
      (∃ least, fewer = least + 1 ∧ part.Plain ∧ part.depth ≤ least) :=
    .enclosed fun least => ((inner least _).gathered (by simp)).gathered (by simp)
  obtain ⟨⟨least, rfl, plain, shallow⟩, after, left⟩ := enclosed ends innerScanned taken
  exact ⟨⟨plain, by omega⟩, after, left⟩

theorem takesAll_text (ending : Nat) (condition : Condition) {levels : Nat} {tokens : List Token} :
    TakesAll (readPart ending levels) tokens condition.text.toList
      (condition.Plain ∧ condition.depth ≤ levels) := by
  induction condition generalizing levels tokens with
  | compare term comparison value =>
      exact (takesAll_compare ending term comparison value).imp fun _ => ⟨.compare, Nat.zero_le _⟩
  | custom name predicate => exact (takesAll_custom ending name predicate).imp False.elim
  | not part ih =>
      refine (takesAll_not fun _ _ => ih).imp fun ⟨plain, shallow⟩ => ⟨.not plain, ?_⟩
      rwa [depth]
  | all parts ih =>
      rw [text_all]
      refine (takesAll_list fun fewer part rest same => ?_).imp ?_
      · subst same
        have each : TakesAll (gathered .both all (readPart ending fewer)) [.either, .closing] _ _ :=
          takesAll_joined (by simp) Lexeme.cuts_both stops_blank fun other member => ih other member
        exact (each.mono (by simp)).gathered (by simp)
      · rintro ⟨filled, plain, shallow⟩
        exact ⟨.all filled plain, by rwa [depth]⟩
  | any parts ih =>
      rw [text_any]
      refine (takesAll_list fun fewer part rest same => ?_).imp ?_
      · subst same
        exact takesAll_joined (by simp) Lexeme.cuts_either stops_blank fun other member =>
          (ih other member).gathered (by simp)
      · rintro ⟨filled, plain, shallow⟩
        exact ⟨.any filled plain, by rwa [depth]⟩

end

theorem plain_of_parse_text {condition result : Condition}
    (parsed : parse condition.text = .ok result) : condition.Plain ∧ condition.depth ≤ 64 := by
  obtain ⟨lexemes, scanned, takes⟩ := parse_eq_ok_iff.mp parsed
  have part : TakesAll (readPart condition.text.utf8ByteSize nestingLimit) []
      condition.text.toList (condition.Plain ∧ condition.depth ≤ nestingLimit) :=
    takesAll_text _ condition
  have all : TakesAll (alternatives (readPart condition.text.utf8ByteSize nestingLimit)) []
      condition.text.toList (condition.Plain ∧ condition.depth ≤ nestingLimit) :=
    (part.gathered (by simp)).gathered (by simp)
  exact (all ends_nil (by simpa using scanned) takes).1

/-- The text of a condition is read exactly if the condition is plain and at most sixty-four deep.
What is read is the condition without its lists of one part, and it has the same answers and
errors. A condition that was itself read from a text is given back as it was. -/
theorem text_parse_round_trip (condition : Condition) :
    ((∃ result, parse condition.text = .ok result) ↔
      condition.Plain ∧ condition.depth ≤ 64) ∧
    (∀ result, parse condition.text = .ok result → result = condition.collapse ∧
      ∀ situation, result.evaluate situation = condition.evaluate situation) ∧
    ∀ source, parse source = .ok condition → condition.depth ≤ 64 →
      parse condition.text = .ok condition := by
  refine ⟨⟨?_, ?_⟩, ?_, ?_⟩
  · rintro ⟨result, parsed⟩
    exact plain_of_parse_text parsed
  · rintro ⟨plain, shallow⟩
    exact ⟨condition.collapse, parse_text_of_plain plain shallow⟩
  · intro result parsed
    obtain ⟨plain, shallow⟩ := plain_of_parse_text parsed
    have same : result = condition.collapse :=
      Except.ok.inj (parsed.symm.trans (parse_text_of_plain plain shallow))
    refine ⟨same, fun situation => ?_⟩
    rw [same, evaluate_collapse]
  · intro source parsed shallow
    obtain ⟨sentence, _, rfl⟩ := exists_derives_of_parse parsed
    have settled := sentence.settled_condition
    rw [parse_text_of_plain settled.plain shallow, settled.collapsed]

def sampleCondition : Condition :=
  .all [.not (.compare .a .equal 1), .any [.compare .x .different 0]]

theorem sampleCondition_plain : sampleCondition.Plain := by
  refine .all (by simp) ?_
  rw [List.forall_mem_cons, List.forall_mem_singleton]
  refine ⟨.not .compare, .any (by simp) ?_⟩
  rw [List.forall_mem_singleton]
  exact .compare

theorem sampleCondition_round_trip :
    sampleCondition.Plain ∧ sampleCondition.depth ≤ 64 ∧
      (∃ result, parse sampleCondition.text = .ok result ∧ result = sampleCondition.collapse ∧
        ∀ situation, result.evaluate situation = sampleCondition.evaluate situation) ∧
      parse sampleCondition.collapse.text = .ok sampleCondition.collapse := by
  have shallow : sampleCondition.depth ≤ 64 := by decide
  obtain ⟨result, parsed⟩ :=
    (text_parse_round_trip sampleCondition).1.mpr ⟨sampleCondition_plain, shallow⟩
  obtain ⟨same, answers⟩ := (text_parse_round_trip sampleCondition).2.1 result parsed
  refine ⟨sampleCondition_plain, shallow, ⟨result, parsed, same, answers⟩, ?_⟩
  rw [same] at parsed
  exact (text_parse_round_trip sampleCondition.collapse).2.2 _ parsed (by decide)

end Condition

end Nmos6502
