/-
  Append-only HISTORIES whose entries are justified by what came before them.

  A property of runs such as "a barrier is answered only after everything ahead of it has been
  resolved" is a property of one history: each entry of it satisfies a condition on the entries
  before.  `Justified J log` says this for a condition `J`, and `justified_concat` is the step
  rule: appending an entry keeps a history justified exactly when the history so far justifies it.

  Two views of a history are compared by prefixes: `prefix_of_map` goes from what a view shows back to
  the entries, and `eq_of_prefix` says where a prefix stops.

  Nothing here is about a particular program.
-/
import Mathlib.Data.List.Induction
import Mathlib.Data.List.Nodup
import Mathlib.Data.List.Perm.Subperm

namespace AtomicBlobStore

variable {α : Type}

/-- Every entry of the history satisfies `J` together with the history before it.  `J` sees no future:
    this is what makes the property one that a step can keep. -/
def Justified (J : List α → α → Prop) (log : List α) : Prop :=
  ∀ before entry after, log = before ++ entry :: after → J before entry

theorem justified_nil (J : List α → α → Prop) : Justified J [] := by
  intro before entry after h
  exact absurd h.symm (by simp)

/-- **The step rule.** -/
theorem justified_concat {J : List α → α → Prop} {log : List α} {entry : α} :
    Justified J (log ++ [entry]) ↔ Justified J log ∧ J log entry := by
  constructor
  · intro h
    refine ⟨fun before e after heq => h before e (after ++ [entry]) (by simp [heq]), ?_⟩
    exact h log entry [] rfl
  · rintro ⟨hlog, hentry⟩ before e after heq
    rcases List.eq_nil_or_concat after with rfl | ⟨after', last, rfl⟩
    · obtain ⟨rfl, hlast⟩ := List.append_inj' heq rfl
      obtain rfl : entry = e := by simpa using hlast
      exact hentry
    · have h' : log ++ [entry] = (before ++ e :: after') ++ [last] := by simpa using heq
      exact hlog before e after' (List.append_inj' h' rfl).1

/-- Several entries at once, each justified by the history that precedes it, the earlier ones of the
    same step included. -/
theorem Justified.append {J : List α → α → Prop} {log more : List α} (h : Justified J log)
    (hmore : ∀ before entry after, more = before ++ entry :: after → J (log ++ before) entry) :
    Justified J (log ++ more) := by
  induction more using List.reverseRecOn with
  | nil => simpa using h
  | append_singleton more entry ih =>
    rw [← List.append_assoc, justified_concat]
    refine ⟨ih fun before e after heq => ?_, hmore more entry [] rfl⟩
    exact hmore before e (after ++ [entry]) (by simp [heq])

/-- Entries that the condition does not speak about can be appended freely. -/
theorem Justified.append_free {J : List α → α → Prop} {log more : List α} (h : Justified J log)
    (hmore : ∀ l entry, entry ∈ more → J l entry) : Justified J (log ++ more) :=
  h.append fun before entry after heq => hmore _ entry (by simp [heq])

/-- A view of a history that shows less, and shows it alike, is a sublist. -/
theorem filterMap_sublist {β : Type} {f g : α → Option β} (h : ∀ a b, f a = some b → g a = some b)
    (log : List α) : (log.filterMap f).Sublist (log.filterMap g) := by
  induction log with
  | nil => exact .slnil
  | cons entry log ih =>
    cases hf : f entry with
    | some b =>
      rw [List.filterMap_cons_some hf, List.filterMap_cons_some (h entry b hf)]
      exact ih.cons_cons b
    | none =>
      rw [List.filterMap_cons_none hf]
      cases hg : g entry with
      | some b =>
        rw [List.filterMap_cons_some hg]
        exact ih.cons b
      | none =>
        rw [List.filterMap_cons_none hg]
        exact ih

/-! ## Prefixes

  A history is often only known through a view of it (the origins of its entries, say), and two
  histories are compared because one is the beginning of the other.  These lemmas go from the view to
  the entries. -/

section Prefixes

variable {β : Type} {f : α → β} {l l' front back : List α}

/-- What shows as a prefix is one, if entries are told apart by what they show. -/
theorem prefix_of_map (hinj : ∀ a ∈ l, ∀ b ∈ l', f a = f b → a = b)
    (h : l.map f <+: l'.map f) : l <+: l' := by
  induction l generalizing l' with
  | nil => exact List.nil_prefix
  | cons a l ih =>
    cases l' with
    | nil => exact absurd (List.prefix_nil.mp h) (by simp)
    | cons b l' =>
      obtain ⟨hhead, htail⟩ := List.cons_prefix_cons.mp h
      obtain rfl := hinj a List.mem_cons_self b List.mem_cons_self hhead
      refine List.cons_prefix_cons.mpr ⟨rfl, ih (fun x hx y hy => ?_) htail⟩
      exact hinj x (List.mem_cons_of_mem _ hx) y (List.mem_cons_of_mem _ hy)

/-- The longest beginning of a prefix on which a test holds. -/
theorem takeWhile_prefix_takeWhile {p : α → Bool} (h : l <+: l') :
    l.takeWhile p <+: l'.takeWhile p := by
  obtain ⟨more, rfl⟩ := h
  rw [List.takeWhile_append]
  split
  · exact (List.takeWhile_prefix p).trans (List.prefix_append _ _)
  · exact List.prefix_refl _

/-- **Where a prefix stops**: behind everything that is in it, before everything that is not. -/
theorem eq_of_prefix (h : l <+: front ++ back) (hnodup : front.Nodup) (hin : ∀ a ∈ front, a ∈ l)
    (hout : ∀ a ∈ back, a ∉ l) : l = front := by
  rcases List.prefix_or_prefix_of_prefix h (List.prefix_append front back) with hle | hle
  · apply hle.eq_of_length_le
    exact (hnodup.subperm hin).length_le
  · obtain ⟨more, rfl⟩ := hle
    obtain ⟨rest, hrest⟩ := h
    rw [List.append_assoc] at hrest
    have hback := List.append_cancel_left hrest
    cases more with
    | nil => exact List.append_nil _
    | cons a more =>
      refine absurd ?_ (hout a ?_)
      · simp
      · rw [← hback]
        simp

end Prefixes

/-- A prefix of a justified history is justified. -/
theorem Justified.of_append {J : List α → α → Prop} {log more : List α}
    (h : Justified J (log ++ more)) : Justified J log := by
  intro before entry after heq
  exact h before entry (after ++ more) (by simp [heq])

end AtomicBlobStore
