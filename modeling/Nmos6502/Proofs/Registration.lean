import Nmos6502.Device.Peripheral
import Nmos6502.Proofs.Routing

/-!
Devices offered to a memory one after the other, with whatever else a host and a processor do in
between. Those that are taken are apart, those that are turned away leave no trace, and the order
of those that are taken makes no difference.
-/

namespace Nmos6502

structure Offer (δ : Type) where
  base : UInt16
  device : δ

namespace Offer

variable {δ : Type} [Device δ]

def mapping (offer : Offer δ) : Mapping δ :=
  ⟨offer.base, offer.base.toUInt32 + Device.size offer.device, offer.device⟩

def span (offer : Offer δ) : Span :=
  offer.mapping.span

def past (offer : Offer δ) : Nat :=
  offer.base.toNat + (Device.size offer.device).toNat

structure Placeable (offer : Offer δ) : Prop where
  nonempty : 1 ≤ (Device.size offer.device).toNat
  within : offer.past ≤ 0x10000

def Countable (offer : Offer δ) : Prop :=
  offer.past < UInt32.size

instance (offer : Offer δ) : Decidable offer.Countable :=
  inferInstanceAs (Decidable (_ < _))

theorem size_mapping (offer : Offer δ) : offer.mapping.size = Device.size offer.device := by
  simp only [mapping, Mapping.size]
  rw [UInt32.add_comm, UInt32.add_sub_cancel]

theorem Placeable.countable {offer : Offer δ} (placeable : offer.Placeable) : offer.Countable := by
  have within := placeable.within
  simp only [Countable, UInt32.size]
  omega

theorem Countable.toNat_limit {offer : Offer δ} (countable : offer.Countable) :
    offer.span.limit.toNat = offer.past := by
  change (offer.base.toUInt32 + Device.size offer.device).toNat = _
  rw [UInt32.toNat_add, UInt16.toNat_toUInt32]
  exact Nat.mod_eq_of_lt countable

theorem Countable.limit?_eq {offer : Offer δ} (countable : offer.Countable) :
    MappedMemory.limit? offer.base (Device.size offer.device) = some offer.span.limit :=
  if_pos countable

theorem limit?_eq_none {offer : Offer δ} (uncountable : ¬offer.Countable) :
    MappedMemory.limit? offer.base (Device.size offer.device) = none :=
  if_neg uncountable

theorem Countable.placeable_iff {offer : Offer δ} (countable : offer.Countable) :
    offer.Placeable ↔ ¬(Device.size offer.device = 0 ∨ 0x10000 < offer.span.limit) := by
  rw [not_or, ← UInt32.toNat_inj, UInt32.toNat_zero, UInt32.lt_iff_toNat_lt,
    countable.toNat_limit]
  constructor
  · exact fun placeable =>
      ⟨Nat.one_le_iff_ne_zero.mp placeable.nonempty, Nat.not_lt.mpr placeable.within⟩
  · exact fun sized => ⟨Nat.one_le_iff_ne_zero.mpr sized.1, Nat.not_lt.mp sized.2⟩

end Offer

namespace MappedMemory

variable {δ : Type} [Device δ]

/-- What a host is told of a device that it has added, and the memory then. -/
def mount (memory : MappedMemory δ) (offer : Offer δ) : Option AdmissionFailure × MappedMemory δ :=
  match memory.addDevice offer.base offer.device with
  | .error error => (some error, memory)
  | .ok extended => (none, extended)

def extended (memory : MappedMemory δ) (offers : List (Offer δ)) : MappedMemory δ :=
  { memory with mappings := memory.mappings ++ offers.map Offer.mapping }

theorem spans_extended (memory : MappedMemory δ) (offers : List (Offer δ)) :
    (memory.extended offers).spans = memory.spans ++ offers.map Offer.span := by
  simp only [spans, extended, List.map_append, List.map_map]
  rfl

structure Admits (memory : MappedMemory δ) (offer : Offer δ) : Prop where
  placeable : offer.Placeable
  apart : ∀ span ∈ memory.spans, span.Apart offer.span

theorem addDevice_of_admits {memory : MappedMemory δ} {offer : Offer δ}
    (admits : memory.Admits offer) :
    memory.addDevice offer.base offer.device = .ok (memory.extended [offer]) := by
  have countable := admits.placeable.countable
  have sized := countable.placeable_iff.mp admits.placeable
  have free : (memory.mappings.find? fun mapping =>
      mapping.overlaps offer.base offer.span.limit) = none := by
    rw [List.find?_eq_none]
    intro mapping member
    rw [Bool.not_eq_true, Mapping.overlaps_eq_false_iff]
    exact admits.apart mapping.span (List.mem_map_of_mem member)
  simp only [addDevice, countable.limit?_eq, if_neg sized, free]
  rfl

structure Obstructs (memory : MappedMemory δ) (offer : Offer δ) (earlier : List Span)
    (existing : Span) (later : List Span) : Prop where
  spans : memory.spans = earlier ++ existing :: later
  clear : ∀ span ∈ earlier, span.Apart offer.span
  blocks : ¬existing.Apart offer.span

theorem obstructs_of_find? {memory : MappedMemory δ} {offer : Offer δ} {existing : Mapping δ}
    (found : (memory.mappings.find? fun mapping =>
      mapping.overlaps offer.base offer.span.limit) = some existing) :
    ∃ earlier later, memory.Obstructs offer earlier existing.span later := by
  obtain ⟨overlaps, earlier, later, split, clear⟩ := List.find?_eq_some_iff_append.mp found
  refine ⟨earlier.map Mapping.span, later.map Mapping.span, ?_, ?_, ?_⟩
  · rw [spans, split, List.map_append, List.map_cons]
  · intro span member
    obtain ⟨mapping, among, rfl⟩ := List.mem_map.mp member
    have separate := clear mapping among
    rw [Bool.not_eq_true', Mapping.overlaps_eq_false_iff] at separate
    exact separate
  · intro apart
    have separate := (existing.overlaps_eq_false_iff _ _).mpr apart
    exact Bool.false_ne_true (separate.symm.trans overlaps)

theorem admits_of_find? {memory : MappedMemory δ} {offer : Offer δ} (placeable : offer.Placeable)
    (found : (memory.mappings.find? fun mapping =>
      mapping.overlaps offer.base offer.span.limit) = none) : memory.Admits offer := by
  refine ⟨placeable, fun span member => ?_⟩
  obtain ⟨mapping, among, rfl⟩ := List.mem_map.mp member
  have separate := List.find?_eq_none.mp found mapping among
  rw [Bool.not_eq_true, Mapping.overlaps_eq_false_iff] at separate
  exact separate

inductive Judgement (memory : MappedMemory δ) (offer : Offer δ) :
    Option AdmissionFailure × MappedMemory δ → Prop
  | overflow (uncountable : ¬offer.Countable) : Judgement memory offer (some .overflow, memory)
  | invalid (unplaceable : ¬offer.Placeable) : Judgement memory offer
      (some (.refused (.invalidSize offer.base (Device.size offer.device))), memory)
  | overlap (placeable : offer.Placeable) {earlier : List Span} {existing : Span}
      {later : List Span} (obstructs : memory.Obstructs offer earlier existing later) :
      Judgement memory offer
        (some (.refused (.overlap offer.base (Device.size offer.device) existing.base
          existing.size)), memory)
  | taken (admits : memory.Admits offer) : Judgement memory offer (none, memory.extended [offer])

theorem mount_judgement (memory : MappedMemory δ) (offer : Offer δ) :
    memory.Judgement offer (memory.mount offer) := by
  by_cases countable : offer.Countable
  · by_cases placeable : offer.Placeable
    · have sized := countable.placeable_iff.mp placeable
      rcases found : memory.mappings.find? fun mapping =>
        mapping.overlaps offer.base offer.span.limit with _ | existing
      · have admits := admits_of_find? placeable found
        rw [mount, addDevice_of_admits admits]
        exact .taken admits
      · obtain ⟨earlier, later, obstructs⟩ := obstructs_of_find? found
        simp only [mount, addDevice, countable.limit?_eq, if_neg sized, found]
        exact .overlap placeable obstructs
    · have unsized := Decidable.not_not.mp (mt countable.placeable_iff.mpr placeable)
      simp only [mount, addDevice, countable.limit?_eq, if_pos unsized]
      exact .invalid placeable
  · simp only [mount, addDevice, Offer.limit?_eq_none countable]
    exact .overflow countable

theorem Admits.mount {memory : MappedMemory δ} {offer : Offer δ} (admits : memory.Admits offer) :
    memory.mount offer = (none, memory.extended [offer]) := by
  rw [MappedMemory.mount, addDevice_of_admits admits]

/-- A device is turned away and leaves the memory as it is, or else it comes last. -/
theorem mount_cases (memory : MappedMemory δ) (offer : Offer δ) :
    (∃ failure, memory.mount offer = (some failure, memory)) ∨
      memory.Admits offer ∧ memory.mount offer = (none, memory.extended [offer]) := by
  have judged := memory.mount_judgement offer
  generalize memory.mount offer = answer at judged ⊢
  rcases judged with _ | _ | _ | admits
  · exact .inl ⟨_, rfl⟩
  · exact .inl ⟨_, rfl⟩
  · exact .inl ⟨_, rfl⟩
  · exact .inr ⟨admits, rfl⟩

def mountAll (memory : MappedMemory δ) (offers : List (Offer δ)) :
    List (Option AdmissionFailure) × MappedMemory δ :=
  Dialogue.run mount memory offers

theorem extended_extended (memory : MappedMemory δ) (first second : List (Offer δ)) :
    (memory.extended first).extended second = memory.extended (first ++ second) := by
  simp only [extended, List.map_append, List.append_assoc]

/-- Devices that can be placed and are apart are all taken. -/
theorem mountAll_apart {memory : MappedMemory δ} {offers : List (Offer δ)}
    (placeable : ∀ offer ∈ offers, offer.Placeable)
    (apart : (memory.spans ++ offers.map Offer.span).Pairwise Span.Apart) :
    memory.mountAll offers = (offers.map fun _ => none, memory.extended offers) := by
  induction offers generalizing memory with
  | nil => simp [mountAll, Dialogue.run, extended]
  | cons offer rest ih =>
      rw [List.forall_mem_cons] at placeable
      have admits : memory.Admits offer :=
        ⟨placeable.1, fun span member => (List.pairwise_append.mp apart).2.2 span member _ (by simp)⟩
      have stillApart : ((memory.extended [offer]).spans ++ rest.map Offer.span).Pairwise
          Span.Apart := by
        rw [spans_extended, List.append_assoc]
        exact apart
      have others := ih placeable.2 stillApart
      rw [mountAll, Dialogue.run_cons, admits.mount]
      rw [mountAll] at others
      rw [others, extended_extended]
      rfl

end MappedMemory

/-! Devices offered in between. -/

inductive Request (δ : Type)
  | offer (offer : Offer δ)
  | operate (operation : Operation)

inductive Reply
  | mounted (failure : Option AdmissionFailure)
  | answered (answer : Answer)

namespace Cpu

variable {δ : Type} [Device δ]

def serve (cpu : Cpu (MappedMemory δ)) : Request δ → Reply × Cpu (MappedMemory δ)
  | .offer offer =>
      let (failure, memory) := cpu.memory.mount offer
      (.mounted failure, { cpu with memory })
  | .operate operation =>
      let (answer, next) := cpu.carryOut operation
      (.answered answer, next)

def serveAll (cpu : Cpu (MappedMemory δ)) (requests : List (Request δ)) :
    List Reply × Cpu (MappedMemory δ) :=
  Dialogue.run serve cpu requests

def accepts (cpu : Cpu (MappedMemory δ)) : Request δ → List (Offer δ)
  | .offer offer => if (cpu.memory.mount offer).1.isNone then [offer] else []
  | .operate _ => []

def acceptedIn (cpu : Cpu (MappedMemory δ)) (requests : List (Request δ)) : List (Offer δ) :=
  Dialogue.gather serve accepts cpu requests

end Cpu

namespace MappedMemory

variable {δ : Type} [Device δ]

/-- A memory has gained devices, and all of its devices are where they were. -/
structure Gains (before : MappedMemory δ) (offers : List (Offer δ)) (after : MappedMemory δ) :
    Prop where
  spans : after.spans = before.spans ++ offers.map Offer.span
  placeable : ∀ offer ∈ offers, offer.Placeable
  apart : Apart before.mappings → Apart after.mappings

theorem Gains.nothing {before after : MappedMemory δ} (spans : after.spans = before.spans) :
    Gains before [] after where
  spans := by rw [spans, List.map_nil, List.append_nil]
  placeable := nofun
  apart apart := by
    rwa [apart_mappings_iff, spans, ← apart_mappings_iff]

theorem Gains.trans {before middle after : MappedMemory δ} {first second : List (Offer δ)}
    (start : Gains before first middle) (finish : Gains middle second after) :
    Gains before (first ++ second) after where
  spans := by rw [finish.spans, start.spans, List.map_append, List.append_assoc]
  placeable := List.forall_mem_append.mpr ⟨start.placeable, finish.placeable⟩
  apart apart := finish.apart (start.apart apart)

theorem Admits.gains {memory : MappedMemory δ} {offer : Offer δ} (admits : memory.Admits offer) :
    Gains memory [offer] (memory.extended [offer]) where
  spans := memory.spans_extended [offer]
  placeable := by simpa using admits.placeable
  apart apart := by
    rw [apart_mappings_iff] at apart ⊢
    rw [spans_extended, List.pairwise_append]
    refine ⟨apart, List.pairwise_singleton _ _, fun span member other same => ?_⟩
    rw [List.mem_singleton.mp same]
    exact admits.apart span member

end MappedMemory

namespace Cpu

variable {δ : Type} [Device δ]

theorem serve_gains (cpu : Cpu (MappedMemory δ)) (request : Request δ) :
    cpu.memory.Gains (cpu.accepts request) (cpu.serve request).2.memory := by
  cases request with
  | offer offer =>
      rcases cpu.memory.mount_cases offer with ⟨failure, refused⟩ | ⟨admits, taken⟩
      · simp only [accepts, serve, refused]
        exact .nothing rfl
      · simp only [accepts, serve, taken]
        exact admits.gains
  | operate operation =>
      exact .nothing (carryOut_keeps (MappedMemory.keeps_spans cpu.memory.spans) rfl operation)

theorem serveAll_gains (cpu : Cpu (MappedMemory δ)) (requests : List (Request δ)) :
    cpu.memory.Gains (cpu.acceptedIn requests) (cpu.serveAll requests).2.memory := by
  induction requests generalizing cpu with
  | nil => exact .nothing rfl
  | cons request rest ih => exact (cpu.serve_gains request).trans (ih _)

theorem serveAll_offers (cpu : Cpu (MappedMemory δ)) (offers : List (Offer δ)) :
    (cpu.serveAll (offers.map .offer)).2 =
      { cpu with memory := cpu.memory.extended (cpu.acceptedIn (offers.map .offer)) } := by
  induction offers generalizing cpu with
  | nil => simp [serveAll, Dialogue.run, acceptedIn, Dialogue.gather, MappedMemory.extended]
  | cons offer rest ih =>
      have others := ih (cpu.serve (.offer offer)).2
      simp only [serveAll, acceptedIn, List.map_cons, Dialogue.run_cons,
        Dialogue.gather] at others ⊢
      rw [others]
      rcases cpu.memory.mount_cases offer with ⟨failure, refused⟩ | ⟨_, taken⟩
      · simp only [accepts, serve, refused]
        rfl
      · simp only [accepts, serve, taken, MappedMemory.extended_extended]
        rfl

end Cpu

namespace MappedMemory

variable {δ : Type} [Device δ]

theorem Gains.spans_of_bare {before after : MappedMemory δ} {taken : List (Offer δ)}
    (gains : Gains before taken after) (bare : before.mappings = []) :
    after.spans = taken.map Offer.span := by
  rw [gains.spans, MappedMemory.spans, bare, List.map_nil, List.nil_append]

theorem Gains.apart_of_bare {before after : MappedMemory δ} {taken : List (Offer δ)}
    (gains : Gains before taken after) (bare : before.mappings = []) : Apart after.mappings :=
  gains.apart (by rw [bare]; exact .nil)

/-- What a memory makes of the devices that it has taken. -/
structure Unambiguous (memory : MappedMemory δ) (taken : List (Offer δ)) : Prop where
  placed : memory.mappings.map (fun mapping => (mapping.base, mapping.size)) =
    taken.map fun offer => (offer.base, Device.size offer.device)
  alone : memory.mappings.Pairwise fun first second =>
    ∀ address, first.contains address = true → second.contains address = false
  routed : ∀ address, memory.Bare address ∨
    ∃ earlier mapping later, memory.Routes address earlier mapping later
  dropped : ∀ fault, (memory.raise fault).mappings = memory.mappings
  refused : ∀ offer failure,
    (memory.mount offer).1 = some failure → (memory.mount offer).2 = memory

theorem Gains.unambiguous {before after : MappedMemory δ} {taken : List (Offer δ)}
    (gains : Gains before taken after) (bare : before.mappings = []) : after.Unambiguous taken := by
  have apart := gains.apart_of_bare bare
  have spans : after.mappings.map Mapping.span = taken.map Offer.span := gains.spans_of_bare bare
  constructor
  · have placed := congrArg
      (List.map fun span => (span.base, span.limit - span.base.toUInt32)) spans
    rw [List.map_map, List.map_map] at placed
    refine placed.trans (List.map_congr_left fun offer _ => ?_)
    exact Prod.ext rfl offer.size_mapping
  · exact apart.imp fun separate address answers => Mapping.alone_of_apart separate answers
  · exact routed apart
  · exact after.raise_mappings
  · intro offer failure
    rcases after.mount_cases offer with ⟨_, refused⟩ | ⟨_, accepted⟩
    · simp [refused]
    · simp [accepted]

/-- Devices that are added in two orders are all taken, and no processor and no host can tell in
which order they were. -/
structure Interchangeable (memory : MappedMemory δ) (first second : List (Offer δ)) : Prop where
  firstTaken : (memory.mountAll first).1 = first.map fun _ => none
  secondTaken : (memory.mountAll second).1 = second.map fun _ => none
  answers : ∀ (host : Cpu Unit) operations,
    ((host.onto (memory.mountAll first).2).carryOutAll operations).1 =
      ((host.onto (memory.mountAll second).2).carryOutAll operations).1
  hosts : ∀ (host : Cpu Unit) operations,
    ((host.onto (memory.mountAll first).2).carryOutAll operations).2.onto () =
      ((host.onto (memory.mountAll second).2).carryOutAll operations).2.onto ()

theorem Shuffled.carryOutAll {left right : MappedMemory δ} (shuffled : Shuffled left right)
    (host : Cpu Unit) (operations : List Operation) :
    ((host.onto left).carryOutAll operations).1 = ((host.onto right).carryOutAll operations).1 ∧
      ((host.onto left).carryOutAll operations).2.onto () =
        ((host.onto right).carryOutAll operations).2.onto () := by
  have alike : Cpu.Alike Shuffled Eq (host.onto left) (host.onto right) := .of_onto shuffled
  obtain ⟨answers, ended⟩ := alike.carryOutAll matches_shuffled (fun _ => rfl) operations
  refine ⟨answers, ?_⟩
  rw [← ended.onto_eq]
  rfl

theorem interchangeable {memory : MappedMemory δ} (bare : memory.mappings = [])
    {first second : List (Offer δ)} (perm : first.Perm second)
    (placeable : ∀ offer ∈ second, offer.Placeable)
    (apart : (second.map Offer.span).Pairwise Span.Apart) :
    memory.Interchangeable first second := by
  have spans : memory.spans = [] := by rw [MappedMemory.spans, bare, List.map_nil]
  have firstApart : (first.map Offer.span).Pairwise Span.Apart :=
    (perm.map _).symm.pairwise apart Span.Apart.symm
  have firstMounted : memory.mountAll first = (first.map fun _ => none, memory.extended first) :=
    mountAll_apart (fun offer member => placeable offer (perm.mem_iff.mp member)) (by rwa [spans])
  have secondMounted :
      memory.mountAll second = (second.map fun _ => none, memory.extended second) :=
    mountAll_apart placeable (by rwa [spans])
  -- Both memories hold the same devices, and an address finds its only one in either order.
  have shuffled : Shuffled (memory.extended first) (memory.extended second) := by
    constructor
    · rwa [apart_mappings_iff, spans_extended, spans, List.nil_append]
    · exact (perm.map _).append_left _
    · rfl
    · rfl
    · rfl
  have alike (host : Cpu Unit) (operations : List Operation) :=
    Shuffled.carryOutAll shuffled host operations
  refine ⟨by rw [firstMounted], by rw [secondMounted], ?_, ?_⟩
  · intro host operations
    rw [firstMounted, secondMounted]
    exact (alike host operations).1
  · intro host operations
    rw [firstMounted, secondMounted]
    exact (alike host operations).2

/-- No address has two devices, whatever has been offered and done. Offers that were turned away
might as well not have been made, and those that were taken might as well have been made in any
other order. -/
theorem routing_unambiguous {start : Cpu (MappedMemory δ)} (bare : start.memory.mappings = [])
    (requests : List (Request δ)) :
    (start.serveAll requests).2.memory.Unambiguous (start.acceptedIn requests) ∧
      (∀ offers : List (Offer δ), requests = offers.map .offer →
        (start.serveAll requests).2.memory =
          (start.memory.mountAll (start.acceptedIn requests)).2) ∧
      ∀ order, order.Perm (start.acceptedIn requests) →
        start.memory.Interchangeable order (start.acceptedIn requests) := by
  have gains := start.serveAll_gains requests
  have spans : start.memory.spans = [] := by rw [MappedMemory.spans, bare, List.map_nil]
  have apart : ((start.acceptedIn requests).map Offer.span).Pairwise Span.Apart := by
    rw [← gains.spans_of_bare bare, ← apart_mappings_iff]
    exact gains.apart_of_bare bare
  refine ⟨gains.unambiguous bare, ?_, fun order perm => interchangeable bare perm gains.placeable apart⟩
  rintro offers rfl
  rw [start.serveAll_offers, mountAll_apart gains.placeable (by rwa [spans])]

def unpopulated : Cpu (MappedMemory Peripheral) :=
  { memory := {} }

def populate : List (Request Peripheral) :=
  [.offer ⟨0x0000, .ram (.zeroed 0x100)⟩, .offer ⟨0x00FF, .ram (.zeroed 0x10)⟩,
    .operate (.writeBus 0x00FF 0x2A), .offer ⟨0x4000, .ram (.zeroed 0)⟩,
    .offer ⟨0x0100, .latch ⟨0⟩⟩]

theorem populate_unambiguous :
    (unpopulated.acceptedIn populate).map Offer.base = [0x0000, 0x0100] ∧
      Bus.read (unpopulated.serveAll populate).2.memory 0x00FF = 0x2A ∧
      (unpopulated.serveAll populate).2.memory.Unambiguous (unpopulated.acceptedIn populate) ∧
      unpopulated.memory.Interchangeable (unpopulated.acceptedIn populate).reverse
        (unpopulated.acceptedIn populate) := by
  have bare : unpopulated.memory.mappings = [] := rfl
  obtain ⟨unambiguous, _, anyOrder⟩ := routing_unambiguous bare populate
  exact ⟨by decide +kernel, by decide +kernel, unambiguous, anyOrder _ (List.reverse_perm _)⟩

end MappedMemory

end Nmos6502
