/-
CaptureSplit.Proofs.Buffering — packets that arrive in any order.

`gathered arrivals` is what has been gathered when packets have arrived one
after the other, beginning with nothing. Each arrival keeps the conversations
in order (`ordered_addAll`) and appends to the packets of its own index only,
so under each index stand the packets that have arrived for it
(`packetsOf_gathered`). In order, conversations are determined by this view
(`eq_of_packetsOf`), and all else follows from it.

Neighbours of different indices may arrive the other way round (`Swapped`).
What is gathered is the same after such swaps, and only after such swaps: of
two orders with the same packets for each index, the first arrival of the one
is in the other the first for its index, and can be moved to the front
(`reflTransGen_move_front`).
-/
import Mathlib.Data.Finset.Card
import Mathlib.Logic.Relation
import CaptureSplit.Proofs.Grouping

namespace CaptureSplit.Buffers

/-- A packet that arrives for the conversation of an index. -/
structure Arrival where
  index : Nat
  packet : Packet
  deriving DecidableEq

/-- Adds packets as they arrive. -/
def addAll (g : Buffers) (arrivals : List Arrival) : Buffers :=
  arrivals.foldl (fun g a => g.add a.index a.packet) g

/-- What has been gathered when these packets have arrived. -/
def gathered (arrivals : List Arrival) : Buffers := addAll empty arrivals

/-- The packets that arrive for an index, in their order. -/
def packetsFor (i : Nat) (arrivals : List Arrival) : List Packet :=
  (arrivals.filter fun a => a.index = i).map Arrival.packet

/-! ## What is gathered -/

theorem addAll_cons (g : Buffers) (a : Arrival) (arrivals : List Arrival) :
    addAll g (a :: arrivals) = addAll (g.add a.index a.packet) arrivals := rfl

theorem packetsFor_cons (i : Nat) (a : Arrival) (arrivals : List Arrival) :
    packetsFor i (a :: arrivals) =
      (if a.index = i then [a.packet] else []) ++ packetsFor i arrivals := by
  by_cases hi : a.index = i <;> simp [packetsFor, hi]

theorem packetsFor_append (i : Nat) (front back : List Arrival) :
    packetsFor i (front ++ back) = packetsFor i front ++ packetsFor i back := by
  simp [packetsFor]

theorem packetsFor_ne_nil_iff {i : Nat} {arrivals : List Arrival} :
    packetsFor i arrivals ≠ [] ↔ ∃ a ∈ arrivals, a.index = i := by
  simp [packetsFor]

theorem ordered_addAll (arrivals : List Arrival) : ∀ {g : Buffers}, Ordered g →
    Ordered (addAll g arrivals) := by
  induction arrivals with
  | nil => exact fun hord => hord
  | cons a arrivals ih =>
    intro g hord
    rw [addAll_cons]
    exact ih (ordered_add a.index a.packet hord)

theorem packetsOf_addAll (i : Nat) (arrivals : List Arrival) : ∀ {g : Buffers}, Ordered g →
    packetsOf i (addAll g arrivals) = packetsOf i g ++ packetsFor i arrivals := by
  induction arrivals with
  | nil => simp [addAll, packetsFor]
  | cons a arrivals ih =>
    intro g hord
    rw [addAll_cons, ih (ordered_add a.index a.packet hord), packetsOf_add a.index i a.packet hord,
      packetsFor_cons, List.append_assoc]

theorem ordered_gathered (arrivals : List Arrival) : Ordered (gathered arrivals) :=
  ordered_addAll arrivals ordered_empty

theorem packetsOf_gathered (i : Nat) (arrivals : List Arrival) :
    packetsOf i (gathered arrivals) = packetsFor i arrivals := by
  rw [gathered, packetsOf_addAll i arrivals ordered_empty]
  rfl

theorem mem_gathered_iff {i : Nat} {packets : List Packet} {arrivals : List Arrival} :
    ⟨i, packets⟩ ∈ gathered arrivals ↔ packets ≠ [] ∧ packets = packetsFor i arrivals := by
  rw [Dissection.mem_iff_packetsOf (ordered_gathered arrivals), packetsOf_gathered,
    eq_comm (a := packets)]

theorem exists_mem_gathered_iff {i : Nat} {arrivals : List Arrival} :
    (∃ c ∈ gathered arrivals, c.index = i) ↔ ∃ a ∈ arrivals, a.index = i := by
  rw [← packetsFor_ne_nil_iff]
  constructor
  · rintro ⟨⟨i, packets⟩, hc, rfl⟩
    obtain ⟨hne, rfl⟩ := mem_gathered_iff.mp hc
    exact hne
  · intro hne
    exact ⟨⟨i, packetsFor i arrivals⟩, mem_gathered_iff.mpr ⟨hne, rfl⟩, rfl⟩

/-- There are as many conversations as indices. -/
theorem length_gathered (arrivals : List Arrival) :
    (gathered arrivals).length = (arrivals.map Arrival.index).toFinset.card := by
  have hnodup : ((gathered arrivals).map Conversation.index).Nodup := by
    rw [List.nodup_iff_pairwise_ne, List.pairwise_map]
    exact (ordered_gathered arrivals).ascending.imp Nat.ne_of_lt
  have hindices : ((gathered arrivals).map Conversation.index).toFinset =
      (arrivals.map Arrival.index).toFinset := by
    ext i
    simp only [List.mem_toFinset, List.mem_map]
    exact exists_mem_gathered_iff
  rw [← hindices, List.toFinset_card_of_nodup hnodup, List.length_map]

/-- What is gathered is told by the packets for each index. -/
theorem gathered_eq_iff {arrivals arrivals' : List Arrival} :
    gathered arrivals = gathered arrivals' ↔
      ∀ i, packetsFor i arrivals = packetsFor i arrivals' := by
  simp only [← packetsOf_gathered]
  constructor
  · intro h i
    rw [h]
  · exact eq_of_packetsOf (ordered_gathered arrivals) (ordered_gathered arrivals')

/-! ## Other orders -/

/-- Two neighbours that arrive for different indices have changed places. -/
inductive Swapped : List Arrival → List Arrival → Prop where
  | swap (front back : List Arrival) {a b : Arrival} : a.index ≠ b.index →
    Swapped (front ++ a :: b :: back) (front ++ b :: a :: back)

theorem Swapped.cons {arrivals arrivals' : List Arrival} (h : Swapped arrivals arrivals')
    (a : Arrival) : Swapped (a :: arrivals) (a :: arrivals') := by
  cases h with
  | swap front back hne => exact .swap (a :: front) back hne

theorem Swapped.packetsFor_eq {arrivals arrivals' : List Arrival} (h : Swapped arrivals arrivals')
    (i : Nat) : packetsFor i arrivals = packetsFor i arrivals' := by
  cases h with
  | @swap front back a b hne =>
    simp only [packetsFor_append, packetsFor_cons]
    by_cases ha : a.index = i
    · have hb : b.index ≠ i := fun hb => hne (ha.trans hb.symm)
      simp [ha, hb]
    · simp [ha]

theorem packetsFor_of_reflTransGen {arrivals arrivals' : List Arrival}
    (h : Relation.ReflTransGen Swapped arrivals arrivals') (i : Nat) :
    packetsFor i arrivals = packetsFor i arrivals' := by
  induction h with
  | refl => rfl
  | tail _ hswap ih => exact ih.trans (hswap.packetsFor_eq i)

theorem reflTransGen_cons (a : Arrival) {arrivals arrivals' : List Arrival}
    (h : Relation.ReflTransGen Swapped arrivals arrivals') :
    Relation.ReflTransGen Swapped (a :: arrivals) (a :: arrivals') :=
  h.lift (a :: ·) fun _ _ hswap => hswap.cons a

/-- An arrival changes places with all before it, one after the other, if none
of them is for its index. -/
theorem reflTransGen_move_front {a : Arrival} {front : List Arrival}
    (h : ∀ b ∈ front, b.index ≠ a.index) (back : List Arrival) :
    Relation.ReflTransGen Swapped (a :: (front ++ back)) (front ++ a :: back) := by
  induction front with
  | nil => exact .refl
  | cons b front ih =>
    obtain ⟨hb, hfront⟩ := List.forall_mem_cons.mp h
    have hfirst : Swapped (a :: b :: (front ++ back)) (b :: a :: (front ++ back)) :=
      .swap [] (front ++ back) hb.symm
    exact .head hfirst (reflTransGen_cons b (ih hfront))

/-- The first packet for an index stands behind arrivals for others. -/
theorem exists_of_packetsFor_eq_cons {a : Arrival} {arrivals : List Arrival} {rest : List Packet}
    (h : packetsFor a.index arrivals = a.packet :: rest) :
    ∃ front back, arrivals = front ++ a :: back ∧ ∀ b ∈ front, b.index ≠ a.index := by
  obtain ⟨b, later, hfilter, hpacket, -⟩ := List.map_eq_cons_iff.mp h
  obtain ⟨front, back, rfl, hfront, hindex, -⟩ := List.filter_eq_cons_iff.mp hfilter
  have hb : b = a := by
    cases a
    cases b
    simp_all
  exact ⟨front, back, by rw [hb], by simpa using hfront⟩

theorem reflTransGen_of_packetsFor {arrivals : List Arrival} : ∀ {arrivals' : List Arrival},
    (∀ i, packetsFor i arrivals = packetsFor i arrivals') →
      Relation.ReflTransGen Swapped arrivals arrivals' := by
  induction arrivals with
  | nil =>
    intro arrivals' h
    cases arrivals' with
    | nil => exact .refl
    | cons a arrivals' =>
      have hnil := h a.index
      rw [packetsFor_cons, if_pos rfl] at hnil
      cases hnil
  | cons a arrivals ih =>
    intro arrivals' h
    have hfirst := h a.index
    rw [packetsFor_cons, if_pos rfl] at hfirst
    obtain ⟨front, back, rfl, hfront⟩ := exists_of_packetsFor_eq_cons hfirst.symm
    have hmove := reflTransGen_move_front hfront back
    have hrest : ∀ i, packetsFor i arrivals = packetsFor i (front ++ back) := by
      intro i
      have hi := (h i).trans (packetsFor_of_reflTransGen hmove i).symm
      rw [packetsFor_cons, packetsFor_cons] at hi
      exact List.append_cancel_left hi
    exact (reflTransGen_cons a (ih hrest)).trans hmove

/-- After each arrival there are as many conversations as indices so far. In
the end they stand in ascending order, one for each index for which a packet
has arrived, with the packets that have arrived for it, in their order, and
there is none without packets. The same is gathered from another order of
arrivals if it is had by swapping neighbours of different indices, and not
otherwise. -/
theorem gathered_by_index (arrivals : List Arrival) :
    (∀ n, (gathered (arrivals.take n)).length =
      ((arrivals.take n).map Arrival.index).toFinset.card) ∧
    (gathered arrivals).Pairwise (fun c c' => c.index < c'.index) ∧
    (∀ i, (∃ c ∈ gathered arrivals, c.index = i) ↔ ∃ a ∈ arrivals, a.index = i) ∧
    (∀ i packets, ⟨i, packets⟩ ∈ gathered arrivals ↔
      packets ≠ [] ∧ packets = (arrivals.filter fun a => a.index = i).map Arrival.packet) ∧
    ∀ arrivals', gathered arrivals = gathered arrivals' ↔
      Relation.ReflTransGen Swapped arrivals arrivals' := by
  refine ⟨fun n => length_gathered _, (ordered_gathered arrivals).ascending,
    fun i => exists_mem_gathered_iff, fun i packets => mem_gathered_iff, fun arrivals' => ?_⟩
  rw [gathered_eq_iff]
  exact ⟨reflTransGen_of_packetsFor, packetsFor_of_reflTransGen⟩

/-- The second arrival is for a lower index, and the third for that of the first. -/
example : gathered [⟨3, [1]⟩, ⟨0, [2]⟩, ⟨3, [3]⟩] = [⟨0, [[2]]⟩, ⟨3, [[1], [3]]⟩] := by decide

end CaptureSplit.Buffers
