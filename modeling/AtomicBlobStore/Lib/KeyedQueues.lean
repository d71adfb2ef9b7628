/-
  A finite map from keys to QUEUES.

  The map is Mathlib's association list; a key without an entry and a key with an empty entry both
  have the empty queue, and everything observable goes through `queue`.  The order of the entries
  stands for the iteration order of a hash map: nothing here depends on it, and `idle` leaves the
  choice among the keys it lists to its caller.

  * `queue_pushBack`, `queue_popFront`, `queue_removeIfEmpty` — what each operation does to every
    queue;
  * `mem_idle`        — which keys can be picked;
  * `total_popFront`  — taking an element makes the whole map smaller, the measure of a loop that
    drains it.

  Nothing here is about a particular program.
-/
import Mathlib.Algebra.Order.Ring.Nat
import Mathlib.Data.Finset.Card
import Mathlib.Data.List.AList

namespace AtomicBlobStore

/-- Queues of `β` by key `κ`. -/
abbrev KeyedQueues (κ β : Type) := AList fun _ : κ => List β

namespace KeyedQueues

variable {κ β : Type} [DecidableEq κ]

/-- The queue of a key.  An entry that is empty and an entry that is missing look the same from here,
    which is why the operations below can be compared without saying when entries come and go. -/
def queue (q : KeyedQueues κ β) (k : κ) : List β := (AList.lookup k q).getD []

/-- `entry(k).or_default().push_back(b)`. -/
def pushBack (q : KeyedQueues κ β) (k : κ) (b : β) : KeyedQueues κ β :=
  AList.insert k (q.queue k ++ [b]) q

/-- `get_mut(k).and_then(pop_front)`, with the map it leaves. -/
def popFront (q : KeyedQueues κ β) (k : κ) : Option (β × KeyedQueues κ β) :=
  match q.queue k with
  | [] => none
  | b :: rest => some (b, AList.insert k rest q)

/-- Remove the entry of a key if its queue is empty. -/
def removeIfEmpty (q : KeyedQueues κ β) (k : κ) : KeyedQueues κ β :=
  if (q.queue k).isEmpty then AList.erase k q else q

/-- `values().all(is_empty)`. -/
def allEmpty (q : KeyedQueues κ β) : Bool := q.entries.all fun e => e.2.isEmpty

/-- The keys that have something queued and are not busy, in iteration order.  The order is that of the
    entries, of which nothing is known. -/
def idle (q : KeyedQueues κ β) (busy : Finset κ) : List κ :=
  (q.entries.filter fun e => !e.2.isEmpty && decide (e.1 ∉ busy)).map fun e => e.1

/-- How many elements are queued in all. -/
def total (q : KeyedQueues κ β) : Nat := (q.entries.map fun e => e.2.length).sum

/-- Everything queued, with its key. -/
def elements (q : KeyedQueues κ β) : List (κ × β) :=
  q.entries.flatMap fun e => e.2.map fun b => (e.1, b)

variable (q : KeyedQueues κ β)

@[simp] theorem queue_empty (k : κ) : queue (∅ : KeyedQueues κ β) k = [] := by
  simp [queue]

theorem queue_insert (k k' : κ) (l : List β) :
    queue (AList.insert k l q) k' = if k' = k then l else q.queue k' := by
  unfold queue
  by_cases h : k' = k
  · subst h
    simp
  · rw [AList.lookup_insert_ne h, if_neg h]

theorem queue_pushBack (k k' : κ) (b : β) :
    (q.pushBack k b).queue k' = if k' = k then q.queue k ++ [b] else q.queue k' :=
  queue_insert q k k' _

theorem popFront_eq_none {k : κ} : q.popFront k = none ↔ q.queue k = [] := by
  unfold popFront
  split <;> simp_all

/-- What is taken is the front, and only this queue changes. -/
theorem queue_popFront {k : κ} {b : β} {q' : KeyedQueues κ β} (h : q.popFront k = some (b, q')) :
    q.queue k = b :: q'.queue k ∧ ∀ k', k' ≠ k → q'.queue k' = q.queue k' := by
  unfold popFront at h
  split at h
  · nomatch h
  · rename_i b' rest hqueue
    obtain ⟨rfl, rfl⟩ := Prod.mk.inj (Option.some.inj h)
    refine ⟨?_, fun k' hk' => ?_⟩
    · rw [queue_insert, if_pos rfl, hqueue]
    · rw [queue_insert, if_neg hk']

/-- An empty entry is as good as none. -/
theorem queue_removeIfEmpty (k k' : κ) : (q.removeIfEmpty k).queue k' = q.queue k' := by
  unfold removeIfEmpty
  split
  · rename_i hempty
    by_cases h : k' = k
    · subst h
      rw [List.isEmpty_iff.mp hempty]
      simp [queue]
    · simp [queue, AList.lookup_erase_ne h]
  · rfl

theorem mem_entries_iff {k : κ} {l : List β} :
    (⟨k, l⟩ : Sigma fun _ : κ => List β) ∈ q.entries ↔ AList.lookup k q = some l :=
  AList.mem_lookup_iff.symm

/-- A non-empty queue is the one of an entry. -/
theorem mem_entries_of_queue {k : κ} (h : q.queue k ≠ []) :
    (⟨k, q.queue k⟩ : Sigma fun _ : κ => List β) ∈ q.entries := by
  rw [mem_entries_iff]
  unfold queue at h ⊢
  cases hl : AList.lookup k q with
  | none => rw [hl] at h; exact absurd rfl h
  | some l => rfl

theorem queue_of_mem_entries {e : Sigma fun _ : κ => List β} (h : e ∈ q.entries) :
    q.queue e.1 = e.2 := by
  have hl := (q.mem_entries_iff (k := e.1) (l := e.2)).mp h
  simp [queue, hl]

theorem allEmpty_iff : q.allEmpty = true ↔ ∀ k, q.queue k = [] := by
  unfold allEmpty
  rw [List.all_eq_true]
  constructor
  · intro h k
    by_contra hne
    have := h _ (q.mem_entries_of_queue hne)
    exact hne (List.isEmpty_iff.mp this)
  · intro h e he
    rw [← q.queue_of_mem_entries he, h e.1]
    rfl

theorem mem_idle {busy : Finset κ} {k : κ} : k ∈ q.idle busy ↔ q.queue k ≠ [] ∧ k ∉ busy := by
  unfold idle
  rw [List.mem_map]
  constructor
  · rintro ⟨e, he, rfl⟩
    obtain ⟨hmem, hcond⟩ := List.mem_filter.mp he
    rw [q.queue_of_mem_entries hmem]
    simpa using hcond
  · rintro ⟨hne, hbusy⟩
    refine ⟨⟨k, q.queue k⟩, List.mem_filter.mpr ⟨q.mem_entries_of_queue hne, ?_⟩, rfl⟩
    simp [hne, hbusy]

theorem mem_elements {k : κ} {b : β} : (k, b) ∈ q.elements ↔ b ∈ q.queue k := by
  unfold elements
  rw [List.mem_flatMap]
  constructor
  · rintro ⟨e, he, hb⟩
    obtain ⟨b', hb', heq⟩ := List.mem_map.mp hb
    obtain ⟨rfl, rfl⟩ := Prod.mk.inj heq
    rwa [q.queue_of_mem_entries he]
  · intro hb
    exact ⟨_, q.mem_entries_of_queue (List.ne_nil_of_mem hb), List.mem_map_of_mem hb⟩

/-! ## The measure

  `total` falls by one with every element that is taken, whatever key it is taken from, and does not
  depend on empty entries: it pays for the turns of a loop that drains the queues in any order. -/

theorem sum_kerase : ∀ {l : List (Sigma fun _ : κ => List β)} {k : κ},
    (l.map fun e => e.2.length).sum
      = ((List.dlookup k l).getD []).length + ((List.kerase k l).map fun e => e.2.length).sum := by
  intro l k
  induction l with
  | nil => rfl
  | cons e l ih =>
    by_cases h : k = e.1
    · obtain ⟨k', es⟩ := e
      obtain rfl : k = k' := h
      have hkerase : List.kerase k ((⟨k, es⟩ : Sigma fun _ : κ => List β) :: l) = l :=
        List.kerase_cons_eq rfl
      rw [hkerase, List.dlookup_cons_eq]
      rfl
    · rw [List.kerase_cons_ne h, List.dlookup_cons_ne _ _ h, List.map_cons, List.sum_cons,
        List.map_cons, List.sum_cons, ih]
      omega

theorem total_popFront {k : κ} {b : β} {q' : KeyedQueues κ β}
    (h : q.popFront k = some (b, q')) : q.total = q'.total + 1 := by
  unfold popFront at h
  split at h
  · nomatch h
  · rename_i b' rest hqueue
    obtain ⟨rfl, rfl⟩ := Prod.mk.inj (Option.some.inj h)
    have hsum := sum_kerase (l := q.entries) (k := k)
    have hlen : ((List.dlookup k q.entries).getD []).length = rest.length + 1 := by
      show (q.queue k).length = _
      rw [hqueue]
      rfl
    unfold total
    rw [AList.entries_insert, List.map_cons, List.sum_cons, hsum, hlen]
    show _ = rest.length + _ + 1
    omega

theorem total_pushBack (k : κ) (b : β) : (q.pushBack k b).total = q.total + 1 := by
  have hsum := sum_kerase (l := q.entries) (k := k)
  have hlen : ((List.dlookup k q.entries).getD []).length = (q.queue k).length := rfl
  unfold pushBack total
  rw [AList.entries_insert, List.map_cons, List.sum_cons, hsum, hlen, List.length_append]
  show (q.queue k).length + 1 + _ = _
  omega

/-- An empty entry counts for nothing. -/
theorem total_removeIfEmpty (k : κ) : (q.removeIfEmpty k).total = q.total := by
  unfold removeIfEmpty
  split
  · rename_i hempty
    have hsum := sum_kerase (l := q.entries) (k := k)
    have hlen : ((List.dlookup k q.entries).getD []).length = 0 := by
      show (q.queue k).length = 0
      rw [List.isEmpty_iff.mp hempty]
      rfl
    unfold total
    show ((List.kerase k q.entries).map fun e => e.2.length).sum = _
    omega
  · rfl

/-- A map without elements has only empty queues. -/
theorem queue_of_total_eq_zero (h : q.total = 0) (k : κ) : q.queue k = [] := by
  have hsum := sum_kerase (l := q.entries) (k := k)
  unfold total at h
  exact List.length_eq_zero_iff.mp (show (q.queue k).length = 0 by
    show ((List.dlookup k q.entries).getD []).length = 0
    omega)

theorem total_eq_zero_iff : q.total = 0 ↔ q.allEmpty = true := by
  constructor
  · intro h
    rw [allEmpty_iff]
    exact q.queue_of_total_eq_zero h
  · intro h
    unfold allEmpty at h
    rw [List.all_eq_true] at h
    unfold total
    rw [List.sum_eq_zero_iff_forall_eq_nat]
    intro n hn
    obtain ⟨e, he, rfl⟩ := List.mem_map.mp hn
    rw [List.isEmpty_iff.mp (h e he)]
    rfl

/-! ## The entries -/

/-- A key with something queued has an entry. -/
theorem mem_of_queue {k : κ} (h : q.queue k ≠ []) : k ∈ q.keys :=
  List.mem_map_of_mem (q.mem_entries_of_queue h)

theorem mem_keys_insert (k k' : κ) (l : List β) :
    k' ∈ (AList.insert k l q : KeyedQueues κ β).keys ↔ k' = k ∨ k' ∈ q.keys :=
  AList.mem_insert q

theorem mem_keys_pushBack (k k' : κ) (b : β) : k' ∈ (q.pushBack k b).keys ↔ k' = k ∨ k' ∈ q.keys :=
  q.mem_keys_insert k k' _

/-- Taking an element keeps the entry, also when it was the last one. -/
theorem mem_keys_popFront {k k' : κ} {b : β} {q' : KeyedQueues κ β}
    (h : q.popFront k = some (b, q')) : k' ∈ q'.keys ↔ k' ∈ q.keys := by
  have hk : k ∈ q.keys := by
    refine q.mem_of_queue ?_
    rw [(q.queue_popFront h).1]
    exact List.cons_ne_nil _ _
  unfold popFront at h
  split at h
  · nomatch h
  · obtain ⟨-, rfl⟩ := Prod.mk.inj (Option.some.inj h)
    rw [mem_keys_insert]
    constructor
    · rintro (rfl | h')
      · exact hk
      · exact h'
    · exact Or.inr

theorem mem_keys_removeIfEmpty (k k' : κ) :
    k' ∈ (q.removeIfEmpty k).keys ↔ k' ∈ q.keys ∧ (k' = k → q.queue k ≠ []) := by
  unfold removeIfEmpty
  split
  · rename_i hempty
    have hnil : q.queue k = [] := List.isEmpty_iff.mp hempty
    have herase : k' ∈ (AList.erase k q : KeyedQueues κ β).keys ↔ k' ≠ k ∧ k' ∈ q.keys :=
      AList.mem_erase
    rw [herase]
    constructor
    · rintro ⟨hne, h⟩
      exact ⟨h, fun heq => absurd heq hne⟩
    · rintro ⟨h, hne⟩
      exact ⟨fun heq => hne heq hnil, h⟩
  · rename_i hempty
    constructor
    · exact fun h => ⟨h, fun _ hnil => hempty (by rw [hnil]; rfl)⟩
    · exact fun h => h.1

/-- There are at most as many keys with something queued as there are elements. -/
theorem countP_queued_le (p : κ → Bool) (hp : ∀ k, p k = true → q.queue k ≠ []) :
    q.keys.countP p ≤ q.total := by
  have hle : ∀ l : List (Sigma fun _ : κ => List β), (∀ e ∈ l, q.queue e.1 = e.2) →
      (l.map fun e => e.1).countP p ≤ (l.map fun e => e.2.length).sum := by
    intro l hl
    induction l with
    | nil => exact Nat.le_refl 0
    | cons e l ih =>
      have ih' := ih fun e' he' => hl e' (.tail _ he')
      rw [List.map_cons, List.map_cons, List.sum_cons, List.countP_cons]
      split
      · rename_i hpe
        have hne := hp e.1 hpe
        rw [hl e (.head _)] at hne
        have := List.length_pos_iff.mpr hne
        omega
      · omega
  exact hle q.entries fun e he => q.queue_of_mem_entries he

end KeyedQueues

end AtomicBlobStore
