import SearchFilter.Access.Directory

/-!
# Consulting a directory

A consultation is a computation that asks a directory questions. It keeps the questions, in the
order in which they are asked, next to what comes out of them: asking is an effect that others
can see, so which questions are asked is part of what a composer does.
-/

namespace SearchFilter

/-- A question to a directory. -/
inductive Question where
  | repository (name : String)
  | namesOfFormat (format : String)
  | permission (repository format : String) (actions : List Action)
  | selectors (repositories formats : List String)
  deriving DecidableEq, Repr

/-- The questions asked and what came of them, or the error that ended the asking. -/
structure Consultation (ε α : Type) where
  questions : List Question
  outcome : Except ε α

namespace Consultation

variable {ε α β : Type}

/-- A value that needs no question. -/
protected def pure (a : α) : Consultation ε α := ⟨[], .ok a⟩

/-- The questions of the second part are asked after those of the first, if it ends well. -/
protected def bind (x : Consultation ε α) (f : α → Consultation ε β) : Consultation ε β :=
  match x.outcome with
  | .ok a => ⟨x.questions ++ (f a).questions, (f a).outcome⟩
  | .error e => ⟨x.questions, .error e⟩

instance : Monad (Consultation ε) where
  pure := Consultation.pure
  bind := Consultation.bind

/-- Ends with an error. -/
def fail (e : ε) : Consultation ε α := ⟨[], .error e⟩

/-- Asks one question. -/
def ask (q : Question) (answer : α) : Consultation ε α := ⟨[q], .ok answer⟩

/-- Takes the outcome of a computation without questions. -/
def ofExcept (x : Except ε α) : Consultation ε α := ⟨[], x⟩

end Consultation

namespace Directory

variable {ε : Type}

def askRepository (d : Directory) (name : String) : Consultation ε (Option Repository) :=
  .ask (.repository name) (d.repository? name)

def askNames (d : Directory) (format : String) : Consultation ε (List String) :=
  .ask (.namesOfFormat format) (d.namesOfFormat format)

def askPermission (d : Directory) (repository format : String) (actions : List Action) :
    Consultation ε Bool :=
  .ask (.permission repository format actions) (d.permits repository format actions)

def askSelectors (d : Directory) (repositories formats : List String) :
    Consultation ε (Option (List NamedSelector)) :=
  .ask (.selectors repositories formats) (d.selectors? repositories formats)

end Directory

end SearchFilter
