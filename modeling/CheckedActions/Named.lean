/-!
Things under names, in the order in which the names first came up. Putting a thing under a name
changes what is found under that name and under no other, and keeps the order of the names.
-/

namespace CheckedActions

/-- The thing under a name put in its place, or at the end if the name is new. -/
def putNamed {α : Type} : List (String × α) → String → α → List (String × α)
  | [], k, a => [(k, a)]
  | e :: es, k, a => if e.1 = k then (k, a) :: es else e :: putNamed es k a

/-- Things put under their names one after another. -/
def putAllNamed {α : Type} (xs : List (String × α)) : List (String × α) :=
  xs.foldl (fun es x => putNamed es x.1 x.2) []

variable {α : Type}

theorem lookup_pair (m : String) (b : α) (xs : List (String × α)) (n : String) :
    ((m, b) :: xs).lookup n = if n = m then some b else xs.lookup n := by
  by_cases h : n = m
  · subst h
    exact (List.lookup_cons_self).trans (if_pos rfl).symm
  · have hb : (n == m) = false := by simp [h]
    rw [List.lookup_cons, hb, if_neg h]

theorem lookup_map {β : Type} (g : α → β) (xs : List (String × α)) (n : String) :
    (xs.map fun e => (e.1, g e.2)).lookup n = (xs.lookup n).map g := by
  induction xs with
  | nil => rfl
  | cons e es ih =>
    rcases e with ⟨m, a⟩
    rw [List.map_cons, lookup_pair, lookup_pair, ih]
    split <;> rfl

theorem lookup_putNamed (xs : List (String × α)) (k : String) (a : α) (n : String) :
    (putNamed xs k a).lookup n = if n = k then some a else xs.lookup n := by
  induction xs with
  | nil => exact lookup_pair k a [] n
  | cons e es ih =>
    rcases e with ⟨m, b⟩
    unfold putNamed
    split
    · rename_i hm
      rw [lookup_pair, lookup_pair, show m = k from hm]
      split <;> rfl
    · rename_i hm
      rw [lookup_pair, lookup_pair, ih]
      by_cases hn : n = k
      · have hmn : ¬ n = m := fun h => hm (h ▸ hn)
        simp [hn] at hmn ⊢
        simp [hmn]
      · simp [hn]

theorem mem_putNamed {xs : List (String × α)} {k : String} {a : α} {e : String × α}
    (h : e ∈ putNamed xs k a) : e ∈ xs ∨ e = (k, a) := by
  induction xs with
  | nil => exact .inr (List.mem_singleton.1 h)
  | cons x xs ih =>
    unfold putNamed at h
    split at h
    · rcases List.mem_cons.1 h with rfl | h
      · exact .inr rfl
      · exact .inl (List.mem_cons_of_mem x h)
    · rcases List.mem_cons.1 h with rfl | h
      · exact .inl List.mem_cons_self
      · exact (ih h).imp (List.mem_cons_of_mem x) id

theorem names_putNamed (xs : List (String × α)) (k : String) (a : α) :
    (putNamed xs k a).map (·.1) =
      if k ∈ xs.map (·.1) then xs.map (·.1) else xs.map (·.1) ++ [k] := by
  induction xs with
  | nil => rfl
  | cons e es ih =>
    by_cases h : e.1 = k
    · simp [putNamed, h]
    · have h' : k ≠ e.1 := fun hk => h hk.symm
      simp only [putNamed, h, if_false, List.map_cons, ih, List.mem_cons, h', false_or]
      split <;> rfl

theorem nodup_putNamed {xs : List (String × α)} (h : (xs.map (·.1)).Nodup) (k : String) (a : α) :
    ((putNamed xs k a).map (·.1)).Nodup := by
  rw [names_putNamed]
  split
  · exact h
  · rename_i hk
    refine List.nodup_append.2 ⟨h, by simp, ?_⟩
    intro b hb c hc
    rw [List.mem_singleton.1 hc]
    exact fun hbk => hk (hbk ▸ hb)

end CheckedActions
