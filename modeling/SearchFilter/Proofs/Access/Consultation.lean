import SearchFilter.Access.Consultation

/-!
# Consultations part by part

A consultation of two parts ends well when both do, and it then asks the questions of the first and
those of the second.

Main statements: `outcome_bind_eq_ok_iff`, `mem_questions_bind` and `mem_questions_of_bind`.
-/

namespace SearchFilter

namespace Consultation

variable {ε α β : Type} {x : Consultation ε α} {f : α → Consultation ε β} {a : α} {b : β}

@[simp] theorem outcome_pure (a : α) : (pure a : Consultation ε α).outcome = .ok a := rfl

theorem bind_of_ok (h : x.outcome = .ok a) :
    x >>= f = ⟨x.questions ++ (f a).questions, (f a).outcome⟩ := by
  have hbind : x >>= f = x.bind f := rfl
  rw [hbind, Consultation.bind, h]

theorem outcome_bind_of_ok (h : x.outcome = .ok a) : (x >>= f).outcome = (f a).outcome := by
  rw [bind_of_ok h]

theorem questions_bind_of_ok (h : x.outcome = .ok a) :
    (x >>= f).questions = x.questions ++ (f a).questions := by
  rw [bind_of_ok h]

theorem bind_of_error {e : ε} (h : x.outcome = .error e) : x >>= f = ⟨x.questions, .error e⟩ := by
  have hbind : x >>= f = x.bind f := rfl
  rw [hbind, Consultation.bind, h]

theorem outcome_bind_of_error {e : ε} (h : x.outcome = .error e) :
    (x >>= f).outcome = .error e := by
  rw [bind_of_error h]

theorem outcome_bind_eq_ok_iff :
    (x >>= f).outcome = .ok b ↔ ∃ a, x.outcome = .ok a ∧ (f a).outcome = .ok b := by
  have hbind : x >>= f = x.bind f := rfl
  rw [hbind, Consultation.bind]
  cases x.outcome with
  | error e => simp
  | ok a => simp

/-- A second part without questions adds none. -/
theorem questions_bind_of_forall (h : ∀ a, (f a).questions = []) :
    (x >>= f).questions = x.questions := by
  cases hx : x.outcome with
  | error e => rw [bind_of_error hx]
  | ok a => rw [questions_bind_of_ok hx, h a, List.append_nil]

theorem mem_questions_bind {q : Question} (hq : q ∈ x.questions) : q ∈ (x >>= f).questions := by
  have hbind : x >>= f = x.bind f := rfl
  rw [hbind, Consultation.bind]
  cases x.outcome with
  | error e => exact hq
  | ok a => exact List.mem_append_left _ hq

theorem mem_questions_of_bind (h : x.outcome = .ok a) {q : Question}
    (hq : q ∈ (f a).questions) : q ∈ (x >>= f).questions := by
  rw [questions_bind_of_ok h]
  exact List.mem_append_right _ hq

end Consultation

namespace Directory

variable {ε : Type} (d : Directory)

@[simp] theorem outcome_askRepository (name : String) :
    (d.askRepository name : Consultation ε _).outcome = .ok (d.repository? name) := rfl

@[simp] theorem outcome_askPermission (repository format : String) (actions : List Action) :
    (d.askPermission repository format actions : Consultation ε _).outcome =
      .ok (d.permits repository format actions) := rfl

@[simp] theorem outcome_askSelectors (repositories formats : List String) :
    (d.askSelectors repositories formats : Consultation ε _).outcome =
      .ok (d.selectors? repositories formats) := rfl

end Directory

end SearchFilter
