import Mathlib.Algebra.BigOperators.Group.List.Lemmas
import Mathlib.Algebra.Ring.Nat
import Nmos6502.Profile

/-!
A profile is an exact account of its entries. A tally of some keys holds each key that occurs
once, with the number of its occurrences, so that two tallies of the same keys differ at most in
their order. The order of hotspots leaves no ties: whatever order a tally has, there is only one
way to rank it.
-/

namespace Nmos6502

/-- Each key that occurs stands in a tally once, with the number of its occurrences. -/
structure Tallies {α : Type} [DecidableEq α] (keys : List α) (tally : List (α × Nat)) : Prop where
  once : (tally.map Prod.fst).Nodup
  exact : ∀ key count, (key, count) ∈ tally ↔ key ∈ keys ∧ count = keys.count key

namespace Tallies

variable {α : Type} [DecidableEq α] {keys others : List α} {tally other : List (α × Nat)}

theorem keys_perm (tallies : Tallies keys tally) : (tally.map Prod.fst).Perm keys.dedup := by
  rw [List.perm_ext_iff_of_nodup tallies.once keys.nodup_dedup]
  intro key
  rw [List.mem_dedup, List.mem_map]
  constructor
  · rintro ⟨⟨key, count⟩, member, rfl⟩
    exact ((tallies.exact key count).mp member).1
  · intro occurs
    exact ⟨(key, keys.count key), (tallies.exact _ _).mpr ⟨occurs, rfl⟩, rfl⟩

theorem length_eq (tallies : Tallies keys tally) : tally.length = keys.dedup.length := by
  simpa using tallies.keys_perm.length_eq

theorem total (tallies : Tallies keys tally) : (tally.map Prod.snd).sum = keys.length := by
  have counts : tally.map Prod.snd = (tally.map Prod.fst).map keys.count := by
    rw [List.map_map]
    refine List.map_congr_left fun entry member => ?_
    exact ((tallies.exact entry.1 entry.2).mp member).2
  rw [counts, (tallies.keys_perm.map keys.count).sum_eq]
  exact List.sum_map_count_dedup_eq_length keys

theorem perm (tallies : Tallies keys tally) (again : Tallies keys other) : tally.Perm other := by
  have distinct := (List.perm_ext_iff_of_nodup tallies.once.of_map again.once.of_map).mpr
  refine distinct fun ⟨key, count⟩ => ?_
  rw [tallies.exact, again.exact]

theorem of_perm (tallies : Tallies keys tally) (same : tally.Perm other) : Tallies keys other where
  once := (same.map Prod.fst).nodup_iff.mp tallies.once
  exact key count := by rw [← same.mem_iff, tallies.exact]

theorem of_keys_perm (tallies : Tallies keys tally) (same : keys.Perm others) :
    Tallies others tally where
  once := tallies.once
  exact key count := by rw [tallies.exact, same.mem_iff, same.count_eq]

end Tallies

theorem tallies_dedup {α : Type} [DecidableEq α] (keys : List α) :
    Tallies keys (keys.dedup.map fun key => (key, keys.count key)) where
  once := by simpa [Function.comp_def] using keys.nodup_dedup
  exact key count := by
    simp only [List.mem_map, List.mem_dedup, Prod.mk.injEq]
    constructor
    · rintro ⟨found, occurs, rfl, rfl⟩
      exact ⟨occurs, rfl⟩
    · rintro ⟨occurs, rfl⟩
      exact ⟨key, occurs, rfl, rfl⟩

namespace Profile

def mnemonics (entries : List TraceEntry) : List Mnemonic :=
  entries.map fun entry => entry.instruction.mnemonic

def visits (entries : List TraceEntry) : List UInt16 :=
  entries.map fun entry => entry.instruction.address

theorem countMnemonic_eq (entries : List TraceEntry) (mnemonic : Mnemonic) :
    countMnemonic entries mnemonic = (mnemonics entries).count mnemonic := by
  rw [countMnemonic, mnemonics, List.count_eq_countP, List.countP_map]
  rfl

theorem frequencies_tallies (entries : List TraceEntry) :
    Tallies (mnemonics entries) (frequencies entries) where
  once := by
    have kept : ((frequencies entries).map Prod.fst).Sublist Mnemonic.all := by
      have shorter := (List.filter_sublist (l := Mnemonic.all.map fun mnemonic =>
        (mnemonic, countMnemonic entries mnemonic)) (p := fun count => count.2 != 0)).map Prod.fst
      simpa [frequencies, Function.comp_def] using shorter
    exact kept.nodup Mnemonic.all_nodup
  exact mnemonic count := by
    simp only [frequencies, List.mem_filter, List.mem_map, bne_iff_ne, countMnemonic_eq,
      Prod.mk.injEq]
    constructor
    · rintro ⟨⟨found, -, rfl, rfl⟩, some⟩
      exact ⟨List.count_pos_iff.mp (Nat.pos_of_ne_zero some), rfl⟩
    · rintro ⟨occurs, rfl⟩
      have positive := List.count_pos_iff.mpr occurs
      exact ⟨⟨mnemonic, mnemonic.mem_all, rfl, rfl⟩, by omega⟩

/-! Addresses are counted one entry at a time. -/

theorem count_visits (entries : List TraceEntry) (counts : Std.TreeMap UInt16 Nat)
    (address : UInt16) :
    let counted := entries.foldl
      (fun counts entry =>
        counts.insert entry.instruction.address (counts.getD entry.instruction.address 0 + 1))
      counts
    counted.getD address 0 = counts.getD address 0 + (visits entries).count address ∧
      (address ∈ counted ↔ address ∈ counts ∨ address ∈ visits entries) := by
  induction entries generalizing counts with
  | nil => simp [visits]
  | cons entry rest ih =>
      obtain ⟨counted, visited⟩ :=
        ih (counts.insert entry.instruction.address (counts.getD entry.instruction.address 0 + 1))
      refine ⟨?_, ?_⟩
      · rw [List.foldl_cons, counted, Std.TreeMap.getD_insert, visits, visits, List.map_cons,
          List.count_cons]
        by_cases here : entry.instruction.address = address
        · simp only [here, Std.compare_self, ↓reduceIte, BEq.rfl]
          omega
        · simp [here]
      · rw [List.foldl_cons, visited, Std.TreeMap.mem_insert, visits, visits, List.map_cons,
          List.mem_cons, Std.compare_eq_iff_eq, eq_comm (a := address)]
        tauto

theorem addressCounts_tallies (entries : List TraceEntry) :
    Tallies (visits entries) (addressCounts entries).toList where
  once := by
    have apart := Std.TreeMap.distinct_keys_toList (t := addressCounts entries)
    refine List.pairwise_map.mpr (apart.imp fun {first second} differ same => ?_)
    exact differ (Std.compare_eq_iff_eq.mpr same)
  exact address count := by
    obtain ⟨counted, visited⟩ := count_visits entries ∅ address
    rw [Std.TreeMap.getD_emptyc, Nat.zero_add] at counted
    -- An address is in the tally if it was visited, and its count is then no default.
    rw [Std.TreeMap.mem_toList_iff_getElem?_eq_some]
    constructor
    · intro found
      have member : address ∈ addressCounts entries := by
        rw [Std.TreeMap.mem_iff_isSome_getElem?, found]
        rfl
      refine ⟨by simpa using visited.mp member, ?_⟩
      rw [← counted, Std.TreeMap.getD_eq_getD_getElem?]
      exact (congrArg (Option.getD · 0) found).symm
    · rintro ⟨occurs, rfl⟩
      rw [← counted]
      exact Std.TreeMap.getElem?_eq_some_getD (visited.mpr (.inr occurs))

def Precedes (first second : UInt16 × Nat) : Prop :=
  second.2 < first.2 ∨ first.2 = second.2 ∧ first.1 < second.1

instance (first second : UInt16 × Nat) : Decidable (Precedes first second) :=
  inferInstanceAs (Decidable (_ ∨ _))

theorem Precedes.asymm {first second : UInt16 × Nat} (precedes : Precedes first second) :
    ¬ Precedes second first := by
  rcases precedes with more | ⟨equal, lower⟩
  · rintro (fewer | ⟨same, _⟩) <;> omega
  · rintro (fewer | ⟨_, higher⟩)
    · omega
    · exact UInt16.lt_asymm lower higher

theorem eq_of_ranked {first second : List (UInt16 × Nat)} (same : first.Perm second)
    (ranked : first.Pairwise Precedes) (rankedToo : second.Pairwise Precedes) : first = second :=
  List.Perm.eq_of_pairwise (fun _ _ _ _ before after => absurd after before.asymm)
    ranked rankedToo same

theorem atLeast_trans (first second third : UInt16 × Nat) :
    decide (second.2 ≤ first.2) = true → decide (third.2 ≤ second.2) = true →
      decide (third.2 ≤ first.2) = true := by
  simp only [decide_eq_true_eq]
  omega

theorem atLeast_total (first second : UInt16 × Nat) :
    (decide (second.2 ≤ first.2) || decide (first.2 ≤ second.2)) = true := by
  simp only [Bool.or_eq_true, decide_eq_true_eq]
  omega

theorem rankedAddresses_perm (entries : List TraceEntry) :
    (rankedAddresses entries).Perm (addressCounts entries).toList :=
  List.mergeSort_perm ..

/-- Among equal counts the ranking keeps the order of the tally. -/
theorem filter_rankedAddresses (entries : List TraceEntry) (count : Nat) :
    (rankedAddresses entries).filter (fun spot => spot.2 == count) =
      (addressCounts entries).toList.filter (fun spot => spot.2 == count) := by
  have level : ((addressCounts entries).toList.filter (fun spot => spot.2 == count)).Pairwise
      fun first second => decide (second.2 ≤ first.2) = true := by
    refine List.pairwise_of_forall_mem_list fun first member second memberToo => ?_
    simp only [List.mem_filter, beq_iff_eq] at member memberToo
    simp [member.2, memberToo.2]
  have kept := (List.sublist_mergeSort atLeast_trans atLeast_total level
    List.filter_sublist).filter fun spot => spot.2 == count
  simp only [List.filter_filter, Bool.and_self] at kept
  have same := ((rankedAddresses_perm entries).filter fun spot => spot.2 == count).length_eq
  exact (kept.eq_of_length same.symm).symm

theorem rankedAddresses_ranked (entries : List TraceEntry) :
    (rankedAddresses entries).Pairwise Precedes := by
  have descending := List.pairwise_mergeSort atLeast_trans atLeast_total
    (addressCounts entries).toList
  rw [List.pairwise_iff_forall_sublist] at descending ⊢
  intro first second inOrder
  have fewer : second.2 ≤ first.2 := by simpa using descending inOrder
  rcases Nat.lt_or_eq_of_le fewer with less | equal
  · exact .inl less
  · have tied := inOrder.filter fun spot => spot.2 == first.2
    rw [filter_rankedAddresses] at tied
    have counted : [first, second].Sublist (addressCounts entries).toList :=
      .trans (by simpa [equal] using tied) List.filter_sublist
    have ascending := Std.TreeMap.ordered_keys_toList.sublist counted
    exact .inr ⟨equal.symm, Std.compare_eq_lt.mp (by simpa using ascending)⟩

theorem rankedAddresses_tallies (entries : List TraceEntry) :
    Tallies (visits entries) (rankedAddresses entries) :=
  (addressCounts_tallies entries).of_perm (rankedAddresses_perm entries).symm

/-- There is one ranking of the visits, whatever the order in which the counts come. -/
theorem eq_rankedAddresses {entries : List TraceEntry} {tally ranking : List (UInt16 × Nat)}
    (tallies : Tallies (visits entries) tally) (same : ranking.Perm tally)
    (ranked : ranking.Pairwise Precedes) : ranking = rankedAddresses entries := by
  have tallied := tallies.of_perm same.symm
  exact eq_of_ranked (tallied.perm (rankedAddresses_tallies entries)) ranked
    (rankedAddresses_ranked entries)

theorem ofEntries_of_perm {entries others : List TraceEntry} (same : others.Perm entries)
    (limit : Nat) : ofEntries others limit = ofEntries entries limit := by
  have mnemonicsSame : (mnemonics others).Perm (mnemonics entries) := same.map _
  have visitsSame : (visits others).Perm (visits entries) := same.map _
  have cycles : others.foldr (fun entry total => entry.instruction.cycles + total) 0 =
      entries.foldr (fun entry total => entry.instruction.cycles + total) 0 :=
    same.foldr_eq' (fun first _ second _ total => Nat.add_left_comm
      second.instruction.cycles first.instruction.cycles total) 0
  have counts : countMnemonic others = countMnemonic entries := by
    funext mnemonic
    rw [countMnemonic_eq, countMnemonic_eq, mnemonicsSame.count_eq]
  have ranked : rankedAddresses others = rankedAddresses entries :=
    eq_rankedAddresses ((rankedAddresses_tallies others).of_keys_perm visitsSame) (.refl _)
      (rankedAddresses_ranked others)
  simp only [ofEntries, frequencies, same.length_eq, cycles, counts, ranked]

structure Summarizes (entries : List TraceEntry) (limit : Nat) (profile : Profile) : Prop where
  instructions : profile.instructions = entries.length
  cycles : profile.cycles = (entries.map fun entry => entry.instruction.cycles).sum
  frequency : Tallies (mnemonics entries) profile.frequency
  frequencyTotal : (profile.frequency.map Prod.snd).sum = entries.length
  reported : profile.hotspots.length = min limit (visits entries).dedup.length
  once : (profile.hotspots.map Prod.fst).Nodup
  counted : ∀ spot ∈ profile.hotspots,
    spot.1 ∈ visits entries ∧ spot.2 = (visits entries).count spot.1
  ranked : profile.hotspots.Pairwise Precedes
  omitted : ∀ address ∈ visits entries, address ∉ profile.hotspots.map Prod.fst →
    ∀ spot ∈ profile.hotspots, Precedes spot (address, (visits entries).count address)

theorem ofEntries_summarizes (entries : List TraceEntry) (limit : Nat) :
    Summarizes entries limit (ofEntries entries limit) := by
  have tallies := rankedAddresses_tallies entries
  have front : ((rankedAddresses entries).take limit).Sublist (rankedAddresses entries) :=
    List.take_sublist ..
  refine ⟨rfl, ?_, frequencies_tallies entries, ?_, ?_, ?_, ?_, ?_, ?_⟩
  · rw [ofEntries, List.sum, List.foldr_map]
  · rw [ofEntries, (frequencies_tallies entries).total, mnemonics, List.length_map]
  · rw [ofEntries, List.length_take, tallies.length_eq]
  · exact (front.map Prod.fst).nodup tallies.once
  · intro spot member
    exact (tallies.exact spot.1 spot.2).mp (front.subset member)
  · exact (rankedAddresses_ranked entries).sublist front
  · intro address visited left spot member
    have whole : (address, (visits entries).count address) ∈ rankedAddresses entries :=
      (tallies.exact _ _).mpr ⟨visited, rfl⟩
    have ranked := rankedAddresses_ranked entries
    rw [← List.take_append_drop limit (rankedAddresses entries)] at whole ranked
    -- What is left out of the front of the ranking comes after all that is in it.
    rcases List.mem_append.mp whole with early | late
    · exact absurd (List.mem_map_of_mem early) left
    · exact (List.pairwise_append.mp ranked).2.2 spot member _ late

/-- A profile accounts for its entries exactly, and it depends neither on their order nor on the
order in which the counts of the addresses come to be ranked. -/
theorem summary_exact (entries : List TraceEntry) (limit : Nat) :
    Summarizes entries limit (ofEntries entries limit) ∧
    (∀ tally ranking : List (UInt16 × Nat), Tallies (visits entries) tally →
      ranking.Perm tally → ranking.Pairwise Precedes →
        (ofEntries entries limit).hotspots = ranking.take limit) ∧
    ∀ others, others.Perm entries → ofEntries others limit = ofEntries entries limit := by
  refine ⟨ofEntries_summarizes entries limit, ?_, ?_⟩
  · intro tally ranking tallies same ranked
    rw [ofEntries, eq_rankedAddresses tallies same ranked]
  · intro others same
    exact ofEntries_of_perm same limit

def sampleEntries : List TraceEntry :=
  [(0x8002, .nop, 2), (0x8003, .inx, 2), (0x8001, .nop, 2), (0x8003, .inx, 2), (0x8002, .nop, 2),
    (0x8000, .lda, 4)].map fun (address, mnemonic, cycles) =>
      ⟨⟨address, 0xEA, (0, 0), 1, mnemonic, cycles, 0⟩, {}⟩

theorem sampleEntries_summary :
    (ofEntries sampleEntries 3).hotspots = [(0x8002, 2), (0x8003, 2), (0x8000, 1)] ∧
      sampleEntries.reverse.Perm sampleEntries ∧
      ofEntries sampleEntries.reverse 3 = ofEntries sampleEntries 3 := by
  obtain ⟨_, hotspots, unordered⟩ := summary_exact sampleEntries 3
  have reversed := sampleEntries.reverse_perm
  have ranked : [((0x8002 : UInt16), 2), (0x8003, 2), (0x8000, 1), (0x8001, 1)].Pairwise
      Precedes := by decide
  exact ⟨hotspots _ _ (tallies_dedup _) (by decide) ranked, reversed, unordered _ reversed⟩

end Profile

end Nmos6502
