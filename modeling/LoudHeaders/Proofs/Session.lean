import LoudHeaders.Trace

/-
  How sessions end.

  `Ends x calls result` says that running `x` calls exactly these programs, in this
  order, and ends with this result; what is logged is left open. A session is
  described by going through its steps: each step that goes well is followed by
  the rest, with its calls in front, and a step that fails is the last. `Quiet x` says
  that `x` calls nothing, however it ends.

  Where only the result matters, it is computed step by step as well, whether the
  steps go well or not (`value_bind`), and what is logged is what the steps log, up to
  the one that fails (`log_bind`).
-/

namespace LoudHeaders

namespace Session

variable {α β : Type}

/-- The session makes exactly these calls and ends with this result. -/
structure Ends (x : Session α) (calls : List Call) (result : Except Failure α) : Prop where
  calls_eq : x.run.calls = calls
  value_eq : x.run.value = result

namespace Ends

theorem pure (a : α) : Ends (Pure.pure a : Session α) [] (.ok a) := ⟨rfl, rfl⟩

/-- Logging calls nothing. -/
theorem log (topic : Topic) (level : Level) (message : Text) :
    Ends (Session.log topic level message) [] (.ok ()) := ⟨rfl, rfl⟩

theorem lift (x : Traced α) : Ends (Session.lift x) x.calls (.ok x.value) := by
  refine ⟨?_, rfl⟩
  show (x.events ++ []).filterMap Event.call? = x.calls
  rw [List.append_nil]
  rfl

theorem ofExcept {ε : Type} (wrap : ε → Error) {r : Except ε α} {a : α} (h : r = .ok a) :
    Ends (Session.ofExcept wrap r) [] (.ok a) := by
  rw [h]
  exact pure a

theorem fail (cause : Error) : Ends (Session.fail cause : Session α) [] (.error (.error cause)) :=
  ⟨rfl, rfl⟩

theorem throw (f : Failure) : Ends (MonadExcept.throw f : Session α) [] (.error f) := ⟨rfl, rfl⟩

theorem ofExcept_error {ε : Type} (wrap : ε → Error) {r : Except ε α} {e : ε} (h : r = .error e) :
    Ends (Session.ofExcept wrap r) [] (.error (.error (wrap e))) := by
  rw [h]
  exact fail (wrap e)

/-- A step that goes well, and the rest behind it. -/
theorem bind {x : Session α} {f : α → Session β} {a : α} {first rest : List Call}
    {result : Except Failure β} (hx : Ends x first (.ok a)) (hf : Ends (f a) rest result) :
    Ends (x >>= f) (first ++ rest) result := by
  have hvalue := hx.value_eq
  refine ⟨?_, ?_⟩
  · rw [ExceptT.run_bind, Traced.calls_bind, hvalue, hx.calls_eq]
    show first ++ (f a).run.calls = first ++ rest
    rw [hf.calls_eq]
  · rw [ExceptT.run_bind, Traced.value_bind, hvalue]
    exact hf.value_eq

/-- A step that fails, and nothing behind it. -/
theorem bind_error {x : Session α} {f : α → Session β} {calls : List Call} {failure : Failure}
    (hx : Ends x calls (.error failure)) : Ends (x >>= f) calls (.error failure) := by
  have hvalue := hx.value_eq
  refine ⟨?_, ?_⟩
  · rw [ExceptT.run_bind, Traced.calls_bind, hvalue, hx.calls_eq]
    exact List.append_nil calls
  · rw [ExceptT.run_bind, Traced.value_bind, hvalue]
    rfl

/-- A step that calls nothing. -/
theorem bind_silent {x : Session α} {f : α → Session β} {a : α} {calls : List Call}
    {result : Except Failure β} (hx : Ends x [] (.ok a)) (hf : Ends (f a) calls result) :
    Ends (x >>= f) calls result := bind hx hf

/-- A call of a program, and the rest behind it. -/
theorem bind_call {run : Runner} {call : Call} {f : Except RunError Text → Session β}
    {rest : List Call} {result : Except Failure β}
    (hf : Ends (f (run call.argv call.cwd)) rest result) :
    Ends (Session.lift (run.call call.argv call.cwd) >>= f) (call :: rest) result :=
  bind (lift _) hf

/-- A line for each item. -/
theorem forM_log (items : List α) (topic : Topic) (level : Level) (message : α → Text) :
    Ends (items.forM fun a => Session.log topic level (message a)) [] (.ok ()) := by
  induction items with
  | nil => exact pure ()
  | cons a rest ih => exact bind_silent (log topic level (message a)) ih

end Ends

/-- The session calls nothing. -/
def Quiet (x : Session α) : Prop := x.run.calls = []

namespace Quiet

theorem ends {x : Session α} (h : Quiet x) : Ends x [] x.run.value := ⟨h, rfl⟩

theorem pure (a : α) : Quiet (Pure.pure a : Session α) := rfl

theorem log (topic : Topic) (level : Level) (message : Text) :
    Quiet (Session.log topic level message) := rfl

theorem fail (cause : Error) : Quiet (Session.fail cause : Session α) := rfl

theorem throw (f : Failure) : Quiet (MonadExcept.throw f : Session α) := rfl

theorem ofExcept {ε : Type} (wrap : ε → Error) (r : Except ε α) :
    Quiet (Session.ofExcept wrap r) := by
  cases r with
  | error e => exact fail (wrap e)
  | ok a => exact pure a

theorem bind {x : Session α} {f : α → Session β} (hx : Quiet x) (hf : ∀ a, Quiet (f a)) :
    Quiet (x >>= f) := by
  cases hvalue : x.run.value with
  | error failure => exact (Ends.bind_error ⟨hx, hvalue⟩).calls_eq
  | ok a => exact (Ends.bind_silent ⟨hx, hvalue⟩ (hf a).ends).calls_eq

end Quiet

/-! ## Results and logs -/

@[simp] theorem value_pure (a : α) : (Pure.pure a : Session α).run.value = .ok a := rfl

/-- A result is that of the rest, unless a step fails. -/
theorem value_bind (x : Session α) (f : α → Session β) :
    (x >>= f).run.value = x.run.value.bind fun a => (f a).run.value := by
  rw [ExceptT.run_bind, Traced.value_bind]
  cases x.run.value <;> rfl

/-- A step that goes well has no part in the result of the rest. -/
theorem value_bind_of_ok {x : Session α} {f : α → Session β} {a : α} (h : x.run.value = .ok a) :
    (x >>= f).run.value = (f a).run.value := by
  rw [value_bind, h]
  rfl

theorem value_bind_of_error {x : Session α} {f : α → Session β} {e : Failure}
    (h : x.run.value = .error e) : (x >>= f).run.value = .error e := by
  rw [value_bind, h]
  rfl

@[simp] theorem log_pure (a : α) : (Pure.pure a : Session α).run.log = [] := rfl

/-- Behind a step that goes well, the log goes on with that of the rest. -/
theorem log_bind {x : Session α} {f : α → Session β} {a : α} (h : x.run.value = .ok a) :
    (x >>= f).run.log = x.run.log ++ (f a).run.log := by
  rw [ExceptT.run_bind]
  show (x.run.events ++ _).filterMap Event.line? = _
  rw [List.filterMap_append, h]
  rfl

end Session

end LoudHeaders
