import Mathlib
import TrustedRoot.Session

namespace TrustedRoot

/-- What a list of notices puts on the output channel. -/
def outputOf (notices : List Notice) : String := String.join (notices.map Notice.outputText)

@[simp] theorem outputOf_nil : outputOf [] = "" := rfl

@[simp] theorem outputOf_append (before more : List Notice) :
    outputOf (before ++ more) = outputOf before ++ outputOf more := by
  simp [outputOf, String.join_append]

@[simp] theorem outputOf_cons (notice : Notice) (rest : List Notice) :
    outputOf (notice :: rest) = notice.outputText ++ outputOf rest := by
  simp [outputOf, String.join_cons]

/-- Records are no output. -/
theorem outputOf_records (records : List Record) : outputOf (records.map .record) = "" := by
  induction records with
  | nil => rfl
  | cons record rest ih => simp [Notice.outputText, ih]

namespace Session

variable {ε δ α β : Type}

/-- How a session ends that finds `before` put out. -/
def result (session : Session ε Id α) (before : List Notice) : Except ε α :=
  ((ExceptT.run session).run before).run.1

/-- All that is put out once a session is over that finds `before` put out. -/
def notices (session : Session ε Id α) (before : List Notice) : List Notice :=
  ((ExceptT.run session).run before).run.2

/-- A session starts with nothing put out. -/
theorem run_start (session : Session ε Id α) :
    session.start.run = (session.result [], session.notices []) :=
  rfl

@[simp] theorem ok_bind (a : α) (next : α → Except ε β) : (Except.ok a >>= next) = next a := rfl

@[simp] theorem error_bind (e : ε) (next : α → Except ε β) :
    (Except.error e >>= next) = .error e :=
  rfl

/-- One step after another ends well if both do. -/
theorem bind_eq_ok_iff {answer : Except ε α} {next : α → Except ε β} {b : β} :
    (answer >>= next) = .ok b ↔ ∃ a, answer = .ok a ∧ next a = .ok b := by
  cases answer <;> simp

theorem map_eq_ok_iff {answer : Except ε α} {f : α → β} {b : β} :
    answer.map f = .ok b ↔ ∃ a, answer = .ok a ∧ f a = b := by
  cases answer <;> simp [Except.map]

theorem mapError_eq_ok_iff {answer : Except ε α} {f : ε → δ} {a : α} :
    answer.mapError f = .ok a ↔ answer = .ok a := by
  cases answer <;> simp [Except.mapError]

section Steps

variable (before : List Notice)

@[simp] theorem result_pure (a : α) : result (pure a : Session ε Id α) before = .ok a := rfl

@[simp] theorem notices_pure (a : α) : notices (pure a : Session ε Id α) before = before := rfl

@[simp] theorem result_throw (e : ε) : result (throw e : Session ε Id α) before = .error e := rfl

@[simp] theorem notices_throw (e : ε) : notices (throw e : Session ε Id α) before = before := rfl

@[simp] theorem result_put (notice : Notice) :
    result (put notice : Session ε Id Unit) before = .ok () :=
  rfl

@[simp] theorem notices_put (notice : Notice) :
    notices (put notice : Session ε Id Unit) before = before ++ [notice] :=
  rfl

@[simp] theorem result_putAll (more : List Notice) :
    result (putAll more : Session ε Id Unit) before = .ok () :=
  rfl

@[simp] theorem notices_putAll (more : List Notice) :
    notices (putAll more : Session ε Id Unit) before = before ++ more :=
  rfl

@[simp] theorem result_ask (step : Id α) : result (ask step : Session ε Id α) before = .ok step.run :=
  rfl

@[simp] theorem notices_ask (step : Id α) : notices (ask step : Session ε Id α) before = before :=
  rfl

@[simp] theorem result_check (answer : Except ε α) :
    result (check answer : Session ε Id α) before = answer :=
  rfl

@[simp] theorem notices_check (answer : Except ε α) :
    notices (check answer : Session ε Id α) before = before :=
  rfl

@[simp] theorem result_failAs (f : ε → δ) (session : Session ε Id α) :
    result (failAs f session) before = (session.result before).mapError f :=
  rfl

@[simp] theorem notices_failAs (f : ε → δ) (session : Session ε Id α) :
    notices (failAs f session) before = session.notices before :=
  rfl

/-- What was put out plays no part in how a session goes on; only the notices of
the first half are handed over. -/
theorem result_bind (session : Session ε Id α) (next : α → Session ε Id β) :
    result (session >>= next) before =
      session.result before >>= fun a => (next a).result (session.notices before) := by
  unfold result notices
  simp only [ExceptT.run_bind, StateT.run_bind, Id.run_bind]
  cases ((ExceptT.run session).run before).run.1 <;> rfl

/-- What is put out by one step after another: all that the first puts out, and what the
second does if it is reached. -/
theorem notices_bind (session : Session ε Id α) (next : α → Session ε Id β) :
    notices (session >>= next) before =
      match session.result before with
      | .ok a => (next a).notices (session.notices before)
      | .error _ => session.notices before := by
  unfold result notices
  simp only [ExceptT.run_bind, StateT.run_bind, Id.run_bind]
  cases ((ExceptT.run session).run before).run.1 <;> rfl

end Steps

/-- A session that puts nothing on the output channel, however it ends. -/
def Silent (session : Session ε Id α) : Prop :=
  ∀ before, outputOf (session.notices before) = outputOf before

namespace Silent

protected theorem pure (a : α) : Silent (pure a : Session ε Id α) := fun _ => rfl

protected theorem throw (e : ε) : Silent (throw e : Session ε Id α) := fun _ => rfl

protected theorem ask (step : Id α) : Silent (ask step : Session ε Id α) := fun _ => rfl

protected theorem check (answer : Except ε α) : Silent (check answer : Session ε Id α) :=
  fun _ => rfl

/-- Notices without output text are no output. -/
protected theorem putAll {more : List Notice} (hmore : outputOf more = "") :
    Silent (putAll more : Session ε Id Unit) := by
  intro before
  rw [notices_putAll, outputOf_append, hmore, String.append_empty]

protected theorem put {notice : Notice} (hnotice : notice.outputText = "") :
    Silent (put notice : Session ε Id Unit) :=
  Silent.putAll (by simpa using hnotice)

/-- A log is no output. -/
protected theorem log (severity : Severity) (text : String) :
    Silent (log severity text : Session ε Id Unit) :=
  Silent.put rfl

protected theorem failAs {session : Session ε Id α} (f : ε → δ) (hsession : session.Silent) :
    Silent (failAs f session) :=
  hsession

/-- Steps that write no output write none one after another. -/
protected theorem bind {session : Session ε Id α} {next : α → Session ε Id β}
    (hsession : session.Silent) (hnext : ∀ a, (next a).Silent) : Silent (session >>= next) := by
  intro before
  rw [notices_bind, ← hsession before]
  cases session.result before with
  | ok a => exact hnext a _
  | error e => rfl

end Silent
end Session
end TrustedRoot
