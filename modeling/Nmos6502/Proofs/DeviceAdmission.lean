import Mathlib.Order.CompletePartialOrder
import Mathlib.Order.Interval.Set.Disjoint
import Nmos6502.Proofs.Registration

/-!
What a memory answers to an offer, measured against the rule on the addresses that the devices
claim. The rule is kept for the devices whose end can be told in 32 bits, and for no others: the
call breaks off where it ought to turn the device away.
-/

namespace Nmos6502

namespace Offer

variable {δ : Type} [Device δ]

def range (offer : Offer δ) : Set Nat :=
  Set.Ico offer.base.toNat offer.past

def ClearOf (offer : Offer δ) (taken : List (Offer δ)) : Prop :=
  ∀ earlier ∈ taken, Disjoint earlier.range offer.range

theorem Placeable.apart_iff {first second : Offer δ} (firstPlaceable : first.Placeable)
    (secondPlaceable : second.Placeable) :
    first.span.Apart second.span ↔ Disjoint first.range second.range := by
  have firstNonempty := firstPlaceable.nonempty
  have secondNonempty := secondPlaceable.nonempty
  rw [range, range, Set.Ico_disjoint_Ico, Span.Apart, UInt32.lt_iff_toNat_lt,
    UInt32.lt_iff_toNat_lt, firstPlaceable.countable.toNat_limit,
    secondPlaceable.countable.toNat_limit, UInt16.toNat_toUInt32, UInt16.toNat_toUInt32]
  change ¬(second.base.toNat < first.past ∧ first.base.toNat < second.past) ↔ _
  rw [past, past]
  omega

end Offer

namespace MappedMemory

variable {δ : Type} [Device δ]

/-- The answer to an offer, next to the devices that were taken before it, is what the rule says,
and a device that is turned away leaves the memory as it is. -/
structure Judges (memory : MappedMemory δ) (taken : List (Offer δ)) (offer : Offer δ) : Prop where
  accepted : (memory.mount offer).1 = none ↔ offer.Placeable ∧ offer.ClearOf taken
  invalid : (memory.mount offer).1 =
    some (.refused (.invalidSize offer.base (Device.size offer.device))) ↔ ¬offer.Placeable
  overlap : offer.Placeable → ¬offer.ClearOf taken →
    ∃ before existing after, taken = before ++ existing :: after ∧
      offer.ClearOf before ∧ ¬Disjoint existing.range offer.range ∧
      (memory.mount offer).1 = some (.refused (.overlap offer.base (Device.size offer.device)
        existing.base (Device.size existing.device)))
  mounted : (memory.mount offer).1 = none → (memory.mount offer).2 = memory.extended [offer]
  refused : ∀ failure,
    (memory.mount offer).1 = some failure → (memory.mount offer).2 = memory

theorem Obstructs.offers {memory : MappedMemory δ} {taken : List (Offer δ)} {offer : Offer δ}
    {earlier later : List Span} {existing : Span}
    (obstructs : memory.Obstructs offer earlier existing later)
    (spans : memory.spans = taken.map Offer.span) :
    ∃ before blocking after, taken = before ++ blocking :: after ∧
      before.map Offer.span = earlier ∧ blocking.span = existing := by
  have split := spans.symm.trans obstructs.spans
  obtain ⟨before, rest, rfl, placed, remaining⟩ := List.map_eq_append_iff.mp split
  obtain ⟨blocking, after, rfl, same, -⟩ := List.map_eq_cons_iff.mp remaining
  exact ⟨before, blocking, after, rfl, placed, same⟩

theorem judges_of_countable {memory : MappedMemory δ} {taken : List (Offer δ)} {offer : Offer δ}
    (spans : memory.spans = taken.map Offer.span)
    (takenPlaceable : ∀ earlier ∈ taken, earlier.Placeable) (countable : offer.Countable) :
    memory.Judges taken offer := by
  have apart_iff (placeable : offer.Placeable) (earlier : Offer δ) (member : earlier ∈ taken) :
      earlier.span.Apart offer.span ↔ Disjoint earlier.range offer.range :=
    (takenPlaceable earlier member).apart_iff placeable
  have judged := memory.mount_judgement offer
  generalize answer : memory.mount offer = outcome at judged
  rcases judged with uncountable | unplaceable | ⟨placeable, obstructs⟩ | admits
  · exact absurd countable uncountable
  · constructor <;> simp [answer, unplaceable]
  · obtain ⟨before, blocking, after, split, rfl, rfl⟩ := obstructs.offers spans
    have blocks : ¬Disjoint blocking.range offer.range := by
      rw [← apart_iff placeable blocking (by simp [split])]
      exact obstructs.blocks
    have clear : offer.ClearOf before := by
      intro other member
      rw [← apart_iff placeable other (by simp [split, member])]
      exact obstructs.clear _ (List.mem_map_of_mem member)
    have blocked : ¬offer.ClearOf taken := fun clear => blocks (clear blocking (by simp [split]))
    have size : blocking.span.size = Device.size blocking.device := blocking.size_mapping
    refine ⟨?_, ?_, ?_, ?_, ?_⟩
    · simp [answer, blocked]
    · simp [answer, placeable]
    · intro _ _
      exact ⟨before, blocking, after, split, clear, blocks, by rw [answer, size]; rfl⟩
    · simp [answer]
    · simp [answer]
  · have placeable := admits.placeable
    have clear : offer.ClearOf taken := by
      intro earlier member
      rw [← apart_iff placeable earlier member]
      exact admits.apart _ (spans ▸ List.mem_map_of_mem member)
    constructor <;> simp [answer, placeable, clear]

theorem mount_of_not_countable (memory : MappedMemory δ) {offer : Offer δ}
    (uncountable : ¬offer.Countable) : memory.mount offer = (some .overflow, memory) := by
  simp only [mount, addDevice, Offer.limit?_eq_none uncountable]

theorem not_judges_of_overflow {memory : MappedMemory δ} {offer : Offer δ}
    (overflows : (memory.mount offer).1 = some .overflow) (unplaceable : ¬offer.Placeable)
    (taken : List (Offer δ)) : ¬memory.Judges taken offer := by
  intro judges
  have invalid := judges.invalid.mpr unplaceable
  rw [overflows] at invalid
  simp at invalid

/-- A memory answers to an offer as the rule says just if the end of the device can be told in 32
bits. The call breaks off if it cannot, and leaves the memory as it is. -/
theorem judges_iff_countable {start : Cpu (MappedMemory δ)} (bare : start.memory.mappings = [])
    (requests : List (Request δ)) (offer : Offer δ) :
    let memory := (start.serveAll requests).2.memory
    (memory.Judges (start.acceptedIn requests) offer ↔ offer.Countable) ∧
      (¬offer.Countable → memory.mount offer = (some .overflow, memory)) := by
  intro memory
  have gains := start.serveAll_gains requests
  have overflows (uncountable : ¬offer.Countable) : memory.mount offer = (some .overflow, memory) :=
    memory.mount_of_not_countable uncountable
  refine ⟨⟨fun judges => ?_, ?_⟩, overflows⟩
  · by_contra uncountable
    have unplaceable := mt Offer.Placeable.countable uncountable
    exact not_judges_of_overflow (by rw [overflows uncountable]) unplaceable _ judges
  · exact judges_of_countable (gains.spans_of_bare bare) gains.placeable

theorem last_page_judged :
    (unpopulated.serveAll populate).2.memory.Judges (unpopulated.acceptedIn populate)
      ⟨0xFF00, .ram (.zeroed 0x100)⟩ := by
  have bare : unpopulated.memory.mappings = [] := rfl
  exact (judges_iff_countable bare populate _).1.mpr (by decide +kernel)

def endless : Offer Peripheral :=
  ⟨0x1000, .writeCounter ⟨0xFFFFF800, 0⟩⟩

theorem endless_overflows :
    (unpopulated.memory.mount endless).1 = some .overflow ∧
      ¬unpopulated.memory.Judges [] endless := by
  have overflows : (unpopulated.memory.mount endless).1 = some .overflow := by decide +kernel
  have unplaceable : ¬endless.Placeable := fun placeable =>
    absurd placeable.within (by decide +kernel)
  exact ⟨overflows, not_judges_of_overflow overflows unplaceable []⟩

end MappedMemory

end Nmos6502
