import SearchFilter.Access.Filter
import SearchFilter.Proofs.Access.Consultation

/-!
# No join of an access filter is empty

To join no formulas is an error, and a composer that joins by `Formula.flatten?` has to pass that
error on. `composeOrFault` is such a composer. It asks the same questions as `compose` and comes to
the same outcome, so that it never has the error to pass on.

Main statement: `AccessPolicy.composeOrFault_eq`.
-/

namespace SearchFilter

/-! ## Errors put in other terms -/

section
variable {ε ε' α β : Type} (φ : ε → ε')

theorem mapM_mapError (f : α → Except ε β) (l : List α) :
    l.mapM (fun a => (f a).mapError φ) = (l.mapM f).mapError φ := by
  induction l with
  | nil => rfl
  | cons a l ih =>
    rw [List.mapM_cons, List.mapM_cons, ih]
    cases f a with
    | error e => rfl
    | ok b =>
      cases l.mapM f with
      | error e => rfl
      | ok bs => rfl

namespace Consultation

/-- The same questions, and the same outcome with its error put in other terms. -/
def mapError (x : Consultation ε α) : Consultation ε' α := ⟨x.questions, x.outcome.mapError φ⟩

theorem mapError_bind (x : Consultation ε α) (f : α → Consultation ε β) :
    (x >>= f).mapError φ = x.mapError φ >>= fun a => (f a).mapError φ := by
  cases h : x.outcome with
  | error e =>
    have hmap : (x.mapError φ).outcome = .error (φ e) := congrArg (Except.mapError φ) h
    rw [bind_of_error h, bind_of_error hmap]
    rfl
  | ok a =>
    have hmap : (x.mapError φ).outcome = .ok a := congrArg (Except.mapError φ) h
    rw [bind_of_ok h, bind_of_ok hmap]
    rfl

end Consultation

end

namespace AccessPolicy

variable (policy : AccessPolicy)

/-! ## The composer -/

/-- Why a composer whose joins can fail gives no filter. -/
inductive Fault where
  | access (e : AccessError)
  | join (e : EmptyClause)
  deriving DecidableEq, Repr

/-- What a selector says, confined to one repository by a join that can fail. -/
def confineOrFault (repository : String) (s : NamedSelector) : Except Fault Expression :=
  match Selector.expressionOf policy.reader policy.aliases s.text with
  | .ok e =>
    (Formula.flatten? .and
      [e, Expression.compare .repository .eq (.exact repository)]).mapError .join
  | .error cause => .error (.access (.selector s.name cause))

def confineAllOrFault (repository : String) (selectors : List NamedSelector) :
    Except Fault (List Expression) :=
  (selectors.filter (·.language == .csel)).mapM (confineOrFault policy repository)

/-- What the selectors of repositories say, or `none` when some cannot be looked up. -/
def selectedOrFault? (format : String) :
    List String → Consultation Fault (Option (List Expression))
  | [] => pure (some [])
  | name :: rest => do
    match ← policy.directory.askSelectors [name] [format] with
    | none => return none
    | some selectors =>
      let here ← .ofExcept (confineAllOrFault policy name selectors)
      let later ← selectedOrFault? format rest
      return later.map (here ++ ·)

/-- The expression of what a user may see, by joins that can fail. -/
def composeOrFault (request : AccessRequest) : Consultation Fault Expression := do
  let names ← (resolve policy request).mapError .access
  let visible ← (visible policy request.format names).mapError .access
  let selected ←
    if request.unauthorized then pure none else selectedOrFault? policy request.format names
  let parts := visiblePart visible ++ selected.getD []
  if parts.isEmpty then .fail (.access .noAccess)
  else .ofExcept ((Formula.flatten? .or parts).mapError .join)

/-! ## Its joins do not fail -/

theorem confineOrFault_eq (repository : String) (s : NamedSelector) :
    confineOrFault policy repository s = (confine policy repository s).mapError .access := by
  unfold confineOrFault confine
  cases Selector.expressionOf policy.reader policy.aliases s.text with
  | error cause => rfl
  | ok e => rfl

theorem confineAllOrFault_eq (repository : String) (selectors : List NamedSelector) :
    confineAllOrFault policy repository selectors =
      (confineAll policy repository selectors).mapError .access := by
  unfold confineAllOrFault confineAll
  rw [funext (confineOrFault_eq policy repository), mapM_mapError]

theorem selectedOrFault?_eq (format : String) (names : List String) :
    selectedOrFault? policy format names = (selected? policy format names).mapError .access := by
  induction names with
  | nil => rfl
  | cons name rest ih =>
    rw [selectedOrFault?, selected?, Consultation.mapError_bind]
    refine congrArg (_ >>= ·) (funext fun found => ?_)
    cases found with
    | none => rfl
    | some selectors =>
      dsimp only
      rw [Consultation.mapError_bind, confineAllOrFault_eq, ih]
      refine congrArg (_ >>= ·) (funext fun here => ?_)
      rw [Consultation.mapError_bind]
      rfl

theorem joinOrFault_eq (parts : List Expression) :
    (if parts.isEmpty then Consultation.fail (.access .noAccess)
      else .ofExcept ((Formula.flatten? .or parts).mapError Fault.join)) =
    (match parts with
      | [] => Consultation.fail AccessError.noAccess
      | first :: rest => pure (first.flatten .or rest)).mapError .access := by
  cases parts with
  | nil => rfl
  | cons first rest => rfl

/-- A composer whose joins can fail asks what `compose` asks and ends as it does. -/
theorem composeOrFault_eq (request : AccessRequest) :
    composeOrFault policy request = (compose policy request).mapError .access := by
  unfold composeOrFault compose
  rw [Consultation.mapError_bind]
  refine congrArg (_ >>= ·) (funext fun names => ?_)
  rw [Consultation.mapError_bind]
  refine congrArg (_ >>= ·) (funext fun visible => ?_)
  dsimp only
  split
  · exact joinOrFault_eq _
  · rw [Consultation.mapError_bind, selectedOrFault?_eq]
    exact congrArg (_ >>= ·) (funext fun selected => joinOrFault_eq _)

theorem composeOrFault_ne_join (request : AccessRequest) (e : EmptyClause) :
    (composeOrFault policy request).outcome ≠ .error (.join e) := by
  rw [composeOrFault_eq, Consultation.mapError]
  cases (compose policy request).outcome with
  | error e' => exact nofun
  | ok filter => exact nofun

end AccessPolicy

end SearchFilter
