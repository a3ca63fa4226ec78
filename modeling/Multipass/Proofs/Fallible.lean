import Mathlib.Data.List.Basic

/-!
# Computations that may fail

When a chain of steps gives a result, each of its steps gave one.
-/

namespace Multipass

variable {ε α β : Type}

theorem map_eq_ok_iff {f : α → β} {step : Except ε α} {result : β} :
    f <$> step = .ok result ↔ ∃ value, step = .ok value ∧ f value = result := by
  cases step <;> simp [Functor.map, Except.map]

theorem map_eq_error_iff {f : α → β} {step : Except ε α} {problem : ε} :
    f <$> step = .error problem ↔ step = .error problem := by
  cases step <;> simp [Functor.map, Except.map]

theorem bind_eq_ok_iff {step : Except ε α} {next : α → Except ε β} {result : β} :
    step >>= next = .ok result ↔ ∃ value, step = .ok value ∧ next value = .ok result := by
  cases step <;> simp [bind, Except.bind]

/-- A chain fails when its first step fails, or the next one after it. -/
theorem bind_eq_error_iff {step : Except ε α} {next : α → Except ε β} {problem : ε} :
    step >>= next = .error problem ↔
      step = .error problem ∨ ∃ value, step = .ok value ∧ next value = .error problem := by
  cases step <;> simp [bind, Except.bind]

theorem toOption_eq_some_iff {step : Except ε α} {result : α} :
    step.toOption = some result ↔ step = .ok result := by
  cases step <;> simp [Except.toOption]

/-- Each result of a list of steps is the result of one of them. -/
theorem exists_of_mem_mapM {f : α → Except ε β} {items : List α} {results : List β} {result : β}
    (computed : items.mapM f = .ok results) (member : result ∈ results) :
    ∃ item ∈ items, f item = .ok result := by
  induction items generalizing results with
  | nil =>
    simp only [List.mapM_nil, pure, Except.pure, Except.ok.injEq] at computed
    subst computed
    simp at member
  | cons item rest ih =>
    rw [List.mapM_cons, bind_eq_ok_iff] at computed
    obtain ⟨first, here, computed⟩ := computed
    rw [bind_eq_ok_iff] at computed
    obtain ⟨others, later, same⟩ := computed
    simp only [pure, Except.pure, Except.ok.injEq] at same
    subst same
    rcases List.mem_cons.mp member with rfl | other
    · exact ⟨item, List.mem_cons_self, here⟩
    · obtain ⟨source, inRest, gives⟩ := ih later other
      exact ⟨source, List.mem_cons_of_mem _ inRest, gives⟩

/-- Each of a list of steps gives a result. -/
theorem exists_result_of_mem_mapM {f : α → Except ε β} {items : List α} {results : List β}
    {item : α} (computed : items.mapM f = .ok results) (member : item ∈ items) :
    ∃ result ∈ results, f item = .ok result := by
  induction items generalizing results with
  | nil => exact absurd member List.not_mem_nil
  | cons first rest ih =>
    rw [List.mapM_cons, bind_eq_ok_iff] at computed
    obtain ⟨result, here, computed⟩ := computed
    rw [bind_eq_ok_iff] at computed
    obtain ⟨others, later, same⟩ := computed
    cases same
    rcases List.mem_cons.mp member with rfl | inRest
    · exact ⟨result, List.mem_cons_self, here⟩
    · obtain ⟨other, given, gives⟩ := ih later inRest
      exact ⟨other, List.mem_cons_of_mem _ given, gives⟩

/-- Other steps that give the same results. -/
theorem mapM_eq_ok_of_imp {f g : α → Except ε β} {items : List α} {results : List β}
    (gives : ∀ item result, f item = .ok result → g item = .ok result)
    (computed : items.mapM f = .ok results) : items.mapM g = .ok results := by
  induction items generalizing results with
  | nil => exact computed
  | cons item rest ih =>
    rw [List.mapM_cons, bind_eq_ok_iff] at computed ⊢
    obtain ⟨first, here, computed⟩ := computed
    obtain ⟨others, later, same⟩ := bind_eq_ok_iff.mp computed
    exact ⟨first, gives item first here, bind_eq_ok_iff.mpr ⟨others, ih later, same⟩⟩

theorem length_of_mapM_eq_ok {f : α → Except ε β} {items : List α} {results : List β}
    (computed : items.mapM f = .ok results) : results.length = items.length := by
  induction items generalizing results with
  | nil =>
    simp only [List.mapM_nil, pure, Except.pure, Except.ok.injEq] at computed
    subst computed
    rfl
  | cons item rest ih =>
    rw [List.mapM_cons, bind_eq_ok_iff] at computed
    obtain ⟨first, -, computed⟩ := computed
    rw [bind_eq_ok_iff] at computed
    obtain ⟨others, later, same⟩ := computed
    cases same
    rw [List.length_cons, List.length_cons, ih later]

/-- When a list of steps fails, one of them fails. -/
theorem exists_of_mapM_eq_error {f : α → Except ε β} {items : List α} {problem : ε}
    (failed : items.mapM f = .error problem) : ∃ item ∈ items, f item = .error problem := by
  induction items with
  | nil => simp only [List.mapM_nil, pure, Except.pure, reduceCtorEq] at failed
  | cons item rest ih =>
    rw [List.mapM_cons] at failed
    rcases bind_eq_error_iff.mp failed with here | ⟨first, -, failed⟩
    · exact ⟨item, List.mem_cons_self, here⟩
    · rcases bind_eq_error_iff.mp failed with later | ⟨others, -, failed⟩
      · obtain ⟨source, inRest, fails⟩ := ih later
        exact ⟨source, List.mem_cons_of_mem _ inRest, fails⟩
      · cases failed

end Multipass
