import DartProtocol.EffectProgram

/-!
# Threads that share a state behind a lock

A thread of a concurrent program computes on its own between **atomic sections**: stretches in which
it holds the lock and is alone with the shared state.  `Thread σ ω α` is such a computation.  Every
section may change the state and emit outputs, and what the thread does next depends on the state it
found.  A panic ends the thread that panics and no other.

* `alone` — the thread from its start to its end with nobody in between, as a program;
* `Pool` — a state and the threads at work on it; `turn` lets one of them run its next section, so a
  sequence of turns is an interleaving;
* `Within R` — every section a thread can come to keeps to the relation `R`.  The rule follows the
  program text, and `Pool.turn_within` carries it to every interleaving.
-/

inductive Thread (σ ω α : Type) : Type
  | done (a : α)
  | panic
  /-- One section; `next` is given the state the section found. -/
  | atomic (act : σ → σ × List ω) (next : σ → Thread σ ω α)

namespace Thread

variable {σ ω α β : Type}

protected def bind : Thread σ ω α → (α → Thread σ ω β) → Thread σ ω β
  | done a, f => f a
  | panic, _ => panic
  | atomic act next, f => atomic act fun s => (next s).bind f

instance : Monad (Thread σ ω) where
  pure := Thread.done
  bind := Thread.bind

/-- Look at the state. -/
def read (f : σ → α) : Thread σ ω α := atomic (fun s => (s, [])) fun s => done (f s)

/-- Change the state. -/
def update (f : σ → σ) : Thread σ ω Unit := atomic (fun s => (f s, [])) fun _ => done ()

/-- Emit what the state says. -/
def emit (f : σ → List ω) : Thread σ ω Unit := atomic (fun s => (s, f s)) fun _ => done ()

/-- A partial function whose undefined case panics. -/
def ofOption : Option α → Thread σ ω α
  | none => panic
  | some a => done a

def forEach (f : β → Thread σ ω Unit) : List β → Thread σ ω Unit
  | [] => done ()
  | b :: bs => (f b).bind fun _ => forEach f bs

/-- Is the thread at its end? -/
def ended : Thread σ ω α → Bool
  | atomic _ _ => false
  | _ => true

/-! ### Running alone -/

/-- The thread as a program: its sections one after the other, a panic as an exception. -/
def alone : Thread σ ω α → Prog σ ω α
  | done a => pure a
  | panic => Prog.throw
  | atomic act next => fun s => ((next s).alone (act s).1).prepend (act s).2

@[simp] theorem alone_bind (t : Thread σ ω α) (f : α → Thread σ ω β) :
    (t >>= f).alone = t.alone >>= fun a => (f a).alone := by
  induction t with
  | done a => rfl
  | panic => rfl
  | atomic act next ih =>
    funext s
    show (((next s) >>= f).alone (act s).1).prepend (act s).2 = _
    rw [ih s, Prog.bind_run, Prog.bind_run]
    show _ = match ((next s).alone (act s).1).result with
      | none => _
      | some a => _
    cases ((next s).alone (act s).1).result with
    | none => rfl
    | some a =>
      simp only [Outcome.prepend_prepend]
      rfl

@[simp] theorem alone_ofOption (o : Option α) :
    (ofOption o : Thread σ ω α).alone = Prog.ofOption o := by
  cases o <;> rfl

@[simp] theorem alone_read_bind (f : σ → α) (g : α → Thread σ ω β) (s : σ) :
    (read f >>= g).alone s = (g (f s)).alone s := by
  rw [alone_bind, Prog.bind_of_some (a := f s) rfl]
  rfl

theorem alone_emit (f : σ → List ω) (s : σ) : (emit f).alone s = ⟨some (), s, f s⟩ := by
  show (⟨some (), s, f s ++ []⟩ : Outcome σ ω Unit) = _
  rw [List.append_nil]

/-- A loop that only emits. -/
theorem alone_forEach_emit (f : β → σ → List ω) (bs : List β) (s : σ) :
    (forEach (fun b => emit (f b)) bs).alone s = ⟨some (), s, bs.flatMap fun b => f b s⟩ := by
  induction bs with
  | nil => rfl
  | cons b bs ih =>
    show ((emit (f b) >>= fun _ => forEach (fun b => emit (f b)) bs).alone s) = _
    rw [alone_bind, Prog.bind_of_some (a := ()) (by rw [alone_emit]), alone_emit, ih, List.flatMap_cons]
    rfl

/-! ### What the sections of a thread do -/

variable {R : σ → List ω → σ → Prop}

/-- Every section keeps to `R`. -/
def Within (R : σ → List ω → σ → Prop) : Thread σ ω α → Prop
  | done _ => True
  | panic => True
  | atomic act next => ∀ s, R s (act s).2 (act s).1 ∧ (next s).Within R

theorem Within.pure (a : α) : (Pure.pure a : Thread σ ω α).Within R := trivial

theorem Within.bind {t : Thread σ ω α} {f : α → Thread σ ω β} (ht : t.Within R)
    (hf : ∀ a, (f a).Within R) : (t >>= f).Within R := by
  induction t with
  | done a => exact hf a
  | panic => trivial
  | atomic act next ih => exact fun s => ⟨(ht s).1, ih s (ht s).2⟩

theorem Within.read (h : ∀ s, R s [] s) (f : σ → α) : (read f : Thread σ ω α).Within R :=
  fun s => ⟨h s, trivial⟩

theorem Within.update {f : σ → σ} (h : ∀ s, R s [] (f s)) : (update f : Thread σ ω Unit).Within R :=
  fun s => ⟨h s, trivial⟩

theorem Within.emit {f : σ → List ω} (h : ∀ s, R s (f s) s) : (emit f).Within R :=
  fun s => ⟨h s, trivial⟩

theorem Within.ofOption (o : Option α) : (ofOption o : Thread σ ω α).Within R := by
  cases o <;> trivial

/-- What is read from a partial function is known to be its value. -/
theorem Within.ofOption_bind {o : Option α} {f : α → Thread σ ω β}
    (h : ∀ a, o = some a → (f a).Within R) : (Thread.ofOption o >>= f).Within R := by
  cases o with
  | none => trivial
  | some a => exact h a rfl

theorem Within.ite {c : Prop} [Decidable c] {t t' : Thread σ ω α} (h : t.Within R)
    (h' : t'.Within R) : (if c then t else t').Within R := by
  split
  · exact h
  · exact h'

theorem Within.forEach {f : β → Thread σ ω Unit} {bs : List β} (h : ∀ b ∈ bs, (f b).Within R) :
    (forEach f bs).Within R := by
  induction bs with
  | nil => trivial
  | cons b bs ih =>
    exact Within.bind (h b List.mem_cons_self) fun _ =>
      ih fun b' hb => h b' (List.mem_cons_of_mem _ hb)

end Thread

/-! ### Interleavings -/

/-- A shared state and the threads at work on it. -/
structure Pool (σ ω : Type) where
  state : σ
  threads : List (Thread σ ω Unit) := []

namespace Pool

variable {σ ω : Type}

/-- Start a thread. -/
def spawn (t : Thread σ ω Unit) (p : Pool σ ω) : Pool σ ω := { p with threads := p.threads ++ [t] }

/-- Let a thread run its next section.  A number without a thread, and a thread at its end, do
nothing. -/
def turn (i : ℕ) : Prog (Pool σ ω) ω Unit := fun p =>
  match p.threads[i]? with
  | some (.atomic act next) =>
    ⟨some (), { state := (act p.state).1, threads := p.threads.set i (next p.state) }, (act p.state).2⟩
  | _ => ⟨some (), p, []⟩

/-- A turn runs the next section of a thread that has one, or does nothing. -/
theorem turn_cases (i : ℕ) (p : Pool σ ω) :
    (∃ act next, p.threads[i]? = some (.atomic act next) ∧
        (turn i p).state
          = { state := (act p.state).1, threads := p.threads.set i (next p.state) }) ∨
      ((∀ act next, p.threads[i]? ≠ some (.atomic act next)) ∧ (turn i p).state = p) := by
  rw [turn]
  split
  · rename_i act next hget
    exact Or.inl ⟨act, next, hget, rfl⟩
  · rename_i hnone
    exact Or.inr ⟨hnone, rfl⟩

/-- **One turn keeps to what every section keeps to.** -/
theorem turn_within {R : σ → List ω → σ → Prop} (hrefl : ∀ s, R s [] s) {p : Pool σ ω}
    (h : ∀ t ∈ p.threads, t.Within R) (i : ℕ) :
    R p.state (turn i p).output (turn i p).state.state ∧
      ∀ t ∈ (turn i p).state.threads, t.Within R := by
  rw [turn]
  split
  · rename_i act next hget
    have hthread := h _ (List.mem_of_getElem? hget)
    refine ⟨(hthread p.state).1, fun t ht => ?_⟩
    rcases List.mem_or_eq_of_mem_set ht with hold | rfl
    · exact h t hold
    · exact (hthread p.state).2
  · exact ⟨hrefl p.state, h⟩

end Pool
