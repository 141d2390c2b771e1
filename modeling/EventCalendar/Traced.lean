/-
  EventCalendar.Traced

  Computations that may fail and that note what they do.  The notes of a
  computation are kept also when it fails; its outcome does not depend on them.
-/

import EventCalendar.Note

namespace EventCalendar

/-- An outcome and the notes made on the way to it. -/
structure Traced (ε α : Type) where
  notes : List Note
  outcome : Except ε α

namespace Traced

variable {ε ε' α β : Type}

/-! ## Combining -/

/-- A computation that goes on with the result of another one. -/
def andThen (x : Traced ε α) (f : α → Traced ε β) : Traced ε β :=
  match x.outcome with
  | .ok a => ⟨x.notes ++ (f a).notes, (f a).outcome⟩
  | .error e => ⟨x.notes, .error e⟩

instance : Monad (Traced ε) where
  pure a := ⟨[], .ok a⟩
  bind := andThen

instance : MonadExceptOf ε (Traced ε) where
  throw e := ⟨[], .error e⟩
  tryCatch x handle :=
    match x.outcome with
    | .ok _ => x
    | .error e => ⟨x.notes ++ (handle e).notes, (handle e).outcome⟩

/-- An outcome without notes. -/
def ofExcept (x : Except ε α) : Traced ε α := ⟨[], x⟩

/-- A note. -/
def note (n : Note) : Traced ε Unit := ⟨[n], .ok ()⟩

/-- Some notes. -/
def noteAll (ns : List Note) : Traced ε Unit := ⟨ns, .ok ()⟩

/-- The same computation with its failures seen as those of another kind. -/
def mapError (f : ε → ε') (x : Traced ε α) : Traced ε' α :=
  ⟨x.notes, x.outcome.mapError f⟩

/-- The outcome of a computation, as a result. -/
def attempt (x : Traced ε α) : Traced ε' (Except ε α) := ⟨x.notes, .ok x.outcome⟩

/-- The same computation, of which only the notes from a severity on are heard. -/
def heardFrom (least : Severity) (x : Traced ε α) : Traced ε α :=
  ⟨x.notes.flatMap (Note.heardFrom least), x.outcome⟩

/-! ## Outcomes -/

@[simp] theorem outcome_pure (a : α) : (pure a : Traced ε α).outcome = .ok a := rfl

@[simp] theorem outcome_bind (x : Traced ε α) (f : α → Traced ε β) :
    (x >>= f).outcome = x.outcome >>= fun a => (f a).outcome := by
  show (andThen x f).outcome = _
  unfold andThen
  cases x.outcome <;> rfl

@[simp] theorem outcome_throw (e : ε) : (throw e : Traced ε α).outcome = .error e := rfl

@[simp] theorem outcome_ofExcept (x : Except ε α) : (ofExcept x).outcome = x := rfl

@[simp] theorem outcome_note (n : Note) : (note n : Traced ε Unit).outcome = .ok () := rfl

@[simp] theorem outcome_noteAll (ns : List Note) :
    (noteAll ns : Traced ε Unit).outcome = .ok () := rfl

@[simp] theorem outcome_mapError (f : ε → ε') (x : Traced ε α) :
    (mapError f x).outcome = x.outcome.mapError f := rfl

@[simp] theorem outcome_attempt (x : Traced ε α) :
    (attempt x : Traced ε' (Except ε α)).outcome = .ok x.outcome := rfl

@[simp] theorem outcome_heardFrom (least : Severity) (x : Traced ε α) :
    (heardFrom least x).outcome = x.outcome := rfl

end Traced

end EventCalendar
