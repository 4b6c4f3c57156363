import Mathlib.Data.List.Basic
import Mathlib.Data.List.Induction
import Mathlib.Tactic.Common

/-!
# Programs with state, observable output and exceptions

Handlers of an event-driven program update a state, emit observable outputs, and may be left by an
exception.  An exception does **not** undo what happened before it: the state and the outputs
produced so far stay.  `Prog σ ω α` is that notion of computation, and `eventLoop` runs a list of
events whose handlers are programs, each one starting where the previous one stopped, whether or
not it was left by an exception.

Five kinds of rules are provided:

* evaluation rules (`bind_run` and the `*_bind` lemmas), which compute a straight-line program;
* `Obeys R` — every run of the program relates its initial state, its outputs and its final state
  by `R`.  For a relation that is closed under composition (`Composable`) the rule follows the
  program text, so what a handler can do is said once and every invariant is read off from it;
* `forEach_isSome_iff`, `mem_forEach_output` — when a loop is left by an exception, and what it has
  put out when it is not;
* `Returns` — no run of the program is left by an exception, again along the program text;
* `Ensures total P m Q` — pre- and postconditions on the outputs so far and the state, where a relation
  that holds between any two moments would be too strong: for runs that are not left by an exception,
  or, when `total`, with the promise that no run is.
-/

universe u

/-- What a call leaves behind: its value (`none` when an exception left the call), the state it
reached, and what it emitted on the way. -/
structure Outcome (σ ω α : Type u) where
  result : Option α
  state : σ
  output : List ω

/-- A program over state `σ` that emits values of `ω` and returns an `α` or throws. -/
def Prog (σ ω α : Type u) : Type u := σ → Outcome σ ω α

namespace Outcome

variable {σ ω α : Type u}

/-- Put earlier outputs in front of an outcome. -/
def prepend (os : List ω) (r : Outcome σ ω α) : Outcome σ ω α :=
  ⟨r.result, r.state, os ++ r.output⟩

@[simp] theorem prepend_result (os : List ω) (r : Outcome σ ω α) :
    (r.prepend os).result = r.result := rfl

@[simp] theorem prepend_state (os : List ω) (r : Outcome σ ω α) :
    (r.prepend os).state = r.state := rfl

@[simp] theorem prepend_output (os : List ω) (r : Outcome σ ω α) :
    (r.prepend os).output = os ++ r.output := rfl

@[simp] theorem prepend_nil (r : Outcome σ ω α) : r.prepend [] = r := rfl

@[simp] theorem prepend_prepend (os os' : List ω) (r : Outcome σ ω α) :
    (r.prepend os').prepend os = r.prepend (os ++ os') := by
  simp [prepend, List.append_assoc]

end Outcome

namespace Prog

variable {σ ω α β ε : Type u}

/-! ### The program constructors -/

protected def pure (a : α) : Prog σ ω α := fun s => ⟨some a, s, []⟩

protected def bind (m : Prog σ ω α) (f : α → Prog σ ω β) : Prog σ ω β := fun s =>
  match (m s).result with
  | none => ⟨none, (m s).state, (m s).output⟩
  | some a => (f a (m s).state).prepend (m s).output

instance : Monad (Prog σ ω) where
  pure := Prog.pure
  bind := Prog.bind

/-- Read the state. -/
def get : Prog σ ω σ := fun s => ⟨some s, s, []⟩

/-- Update the state. -/
def modify (f : σ → σ) : Prog σ ω PUnit := fun s => ⟨some ⟨⟩, f s, []⟩

/-- Emit one output. -/
def emit (o : ω) : Prog σ ω PUnit := fun s => ⟨some ⟨⟩, s, [o]⟩

/-- Leave by an exception. -/
def throw : Prog σ ω α := fun s => ⟨none, s, []⟩

/-- A partial function whose undefined case throws. -/
def ofOption : Option α → Prog σ ω α
  | none => throw
  | some a => Prog.pure a

/-- Catch an exception: the value of the call, or `none`. -/
def attempt (m : Prog σ ω α) : Prog σ ω (Option α) := fun s =>
  ⟨some (m s).result, (m s).state, (m s).output⟩

/-- Run the body for each element in turn; an exception ends the loop. -/
def forEach (f : β → Prog σ ω PUnit) : List β → Prog σ ω PUnit
  | [] => Prog.pure ⟨⟩
  | b :: bs => Prog.bind (f b) fun _ => forEach f bs

/-- Handle the events one after the other.  An exception ends its own handler only. -/
def eventLoop (step : ε → Prog σ ω PUnit) : List ε → Prog σ ω PUnit
  | [] => Prog.pure ⟨⟩
  | e :: es => Prog.bind (attempt (step e)) fun _ => eventLoop step es

/-! ### Evaluation rules -/

theorem bind_run (m : Prog σ ω α) (f : α → Prog σ ω β) (s : σ) :
    (m >>= f) s = match (m s).result with
      | none => ⟨none, (m s).state, (m s).output⟩
      | some a => (f a (m s).state).prepend (m s).output := rfl

theorem bind_of_some {m : Prog σ ω α} {s : σ} {a : α} (h : (m s).result = some a)
    (f : α → Prog σ ω β) : (m >>= f) s = (f a (m s).state).prepend (m s).output := by
  rw [bind_run, h]

theorem bind_of_none {m : Prog σ ω α} {s : σ} (h : (m s).result = none)
    (f : α → Prog σ ω β) : (m >>= f) s = ⟨none, (m s).state, (m s).output⟩ := by
  rw [bind_run, h]

@[simp] theorem pure_run (a : α) (s : σ) : (pure a : Prog σ ω α) s = ⟨some a, s, []⟩ := rfl

@[simp] theorem get_run (s : σ) : (get : Prog σ ω σ) s = ⟨some s, s, []⟩ := rfl

@[simp] theorem modify_run (f : σ → σ) (s : σ) :
    (modify f : Prog σ ω PUnit) s = ⟨some ⟨⟩, f s, []⟩ := rfl

@[simp] theorem emit_run (o : ω) (s : σ) : (emit o : Prog σ ω PUnit) s = ⟨some ⟨⟩, s, [o]⟩ := rfl

@[simp] theorem throw_run (s : σ) : (throw : Prog σ ω α) s = ⟨none, s, []⟩ := rfl

@[simp] theorem ofOption_none : (ofOption none : Prog σ ω α) = throw := rfl

@[simp] theorem ofOption_some (a : α) : (ofOption (some a) : Prog σ ω α) = pure a := rfl

@[simp] theorem attempt_run (m : Prog σ ω α) (s : σ) :
    attempt m s = ⟨some (m s).result, (m s).state, (m s).output⟩ := rfl

@[simp] theorem pure_bind (a : α) (f : α → Prog σ ω β) : (pure a >>= f) = f a := rfl

theorem ofOption_some_bind (a : α) (f : α → Prog σ ω β) : (ofOption (some a) >>= f) = f a := rfl

@[simp] theorem get_bind (f : σ → Prog σ ω β) (s : σ) : (get >>= f) s = f s s := rfl

@[simp] theorem modify_bind (g : σ → σ) (f : PUnit → Prog σ ω β) (s : σ) :
    (modify g >>= f) s = f ⟨⟩ (g s) := rfl

@[simp] theorem emit_bind (o : ω) (f : PUnit → Prog σ ω β) (s : σ) :
    (emit o >>= f) s = (f ⟨⟩ s).prepend [o] := rfl

@[simp] theorem throw_bind (f : α → Prog σ ω β) : ((throw : Prog σ ω α) >>= f) = throw := rfl

@[simp] theorem attempt_bind (m : Prog σ ω α) (f : Option α → Prog σ ω β) (s : σ) :
    (attempt m >>= f) s = (f (m s).result (m s).state).prepend (m s).output := rfl

/-- A sequence that is not left by an exception ran both of its parts. -/
theorem bind_of_isSome {m : Prog σ ω α} {f : α → Prog σ ω β} {s : σ}
    (h : ((m >>= f) s).result.isSome) :
    ∃ a, (m s).result = some a ∧ (m >>= f) s = (f a (m s).state).prepend (m s).output ∧
      (f a (m s).state).result.isSome := by
  cases hres : (m s).result with
  | none =>
    rw [bind_of_none hres] at h
    cases h
  | some a =>
    rw [bind_of_some hres] at h ⊢
    exact ⟨a, rfl, rfl, h⟩

/-- What the first part leaves behind and the second part keeps holds at the end, also when an exception
leaves the first part. -/
theorem after_bind {P : σ → Prop} {m : Prog σ ω α} {f : α → Prog σ ω β} {s : σ} (hm : P (m s).state)
    (hf : ∀ a t, P t → P (f a t).state) : P ((m >>= f) s).state := by
  cases hres : (m s).result with
  | none =>
    rw [bind_of_none hres]
    exact hm
  | some a =>
    rw [bind_of_some hres]
    exact hf a _ hm

theorem ofOption_bind_of_isSome {o : Option α} {f : α → Prog σ ω β} {s : σ}
    (h : ((ofOption o >>= f) s).result.isSome) : ∃ a, o = some a ∧ (ofOption o >>= f) s = f a s := by
  cases o with
  | none => cases h
  | some a => exact ⟨a, rfl, rfl⟩

theorem forEach_nil (f : β → Prog σ ω PUnit) : forEach f [] = pure ⟨⟩ := rfl

theorem forEach_cons (f : β → Prog σ ω PUnit) (b : β) (bs : List β) :
    forEach f (b :: bs) = (f b >>= fun _ => forEach f bs) := rfl

/-- One more turn of a loop, unless an exception ended it before. -/
theorem forEach_concat_state (f : β → Prog σ ω PUnit) (bs : List β) (b : β) (s : σ) :
    (forEach f (bs ++ [b]) s).state
      = if (forEach f bs s).result.isSome then (f b (forEach f bs s).state).state
        else (forEach f bs s).state := by
  induction bs generalizing s with
  | nil =>
    show ((f b >>= fun _ => forEach f []) s).state = (f b s).state
    rw [bind_run]
    cases (f b s).result <;> rfl
  | cons b' bs ih =>
    rw [List.cons_append, forEach_cons, forEach_cons, bind_run, bind_run]
    cases (f b' s).result with
    | none => rfl
    | some u => exact ih (f b' s).state

theorem eventLoop_cons (step : ε → Prog σ ω PUnit) (e : ε) (es : List ε) (s : σ) :
    eventLoop step (e :: es) s
      = (eventLoop step es (step e s).state).prepend (step e s).output := rfl

/-- Running two lists of events is running the second from where the first one stopped. -/
theorem eventLoop_append (step : ε → Prog σ ω PUnit) (es es' : List ε) (s : σ) :
    eventLoop step (es ++ es') s
      = (eventLoop step es' (eventLoop step es s).state).prepend (eventLoop step es s).output := by
  induction es generalizing s with
  | nil => rfl
  | cons e es ih =>
    rw [List.cons_append, eventLoop_cons, ih, eventLoop_cons]
    simp

/-! ### What a program can do -/

/-- A relation between an initial state, the outputs and the final state that survives doing
nothing and doing one thing after the other. -/
structure Composable (R : σ → List ω → σ → Prop) : Prop where
  refl : ∀ s, R s [] s
  trans : ∀ {s t u : σ} {os os' : List ω}, R s os t → R t os' u → R s (os ++ os') u

/-- Every run of `m` from `s` is described by `R`, also one that an exception ends. -/
def ObeysAt (R : σ → List ω → σ → Prop) (m : Prog σ ω α) (s : σ) : Prop :=
  R s (m s).output (m s).state

/-- Every run of `m` is described by `R`. -/
def Obeys (R : σ → List ω → σ → Prop) (m : Prog σ ω α) : Prop := ∀ s, ObeysAt R m s

variable {R : σ → List ω → σ → Prop}

theorem ObeysAt.bind (hR : Composable R) {m : Prog σ ω α} {f : α → Prog σ ω β} {s : σ}
    (hm : ObeysAt R m s) (hf : ∀ a, (m s).result = some a → ObeysAt R (f a) (m s).state) :
    ObeysAt R (m >>= f) s := by
  unfold ObeysAt at *
  cases h : (m s).result with
  | none =>
    rw [bind_of_none h]
    exact hm
  | some a =>
    rw [bind_of_some h]
    exact hR.trans hm (hf a h)

theorem ObeysAt.attempt {m : Prog σ ω α} {s : σ} (h : ObeysAt R m s) : ObeysAt R (attempt m) s := h

theorem Obeys.pure (hR : Composable R) (a : α) : Obeys R (Pure.pure a : Prog σ ω α) :=
  fun s => hR.refl s

theorem Obeys.bind (hR : Composable R) {m : Prog σ ω α} {f : α → Prog σ ω β}
    (hm : Obeys R m) (hf : ∀ a, Obeys R (f a)) : Obeys R (m >>= f) :=
  fun s => ObeysAt.bind hR (hm s) fun a _ => hf a _

theorem Obeys.get_bind {f : σ → Prog σ ω β} (hf : ∀ s, Obeys R (f s)) : Obeys R (Prog.get >>= f) :=
  fun s => hf s s

theorem Obeys.throw (hR : Composable R) : Obeys R (throw : Prog σ ω α) := fun s => hR.refl s

theorem Obeys.ofOption (hR : Composable R) (o : Option α) : Obeys R (ofOption o : Prog σ ω α) := by
  cases o with
  | none => exact Obeys.throw hR
  | some a => exact Obeys.pure hR a

theorem Obeys.ofOption_bind (hR : Composable R) {o : Option α} {f : α → Prog σ ω β}
    (hf : ∀ a, Obeys R (f a)) : Obeys R (Prog.ofOption o >>= f) :=
  Obeys.bind hR (Obeys.ofOption hR o) hf

theorem Obeys.attempt {m : Prog σ ω α} (h : Obeys R m) : Obeys R (attempt m) := h

theorem Obeys.modify {f : σ → σ} (h : ∀ s, R s [] (f s)) : Obeys R (modify f : Prog σ ω PUnit) := h

theorem Obeys.emit {o : ω} (h : ∀ s, R s [o] s) : Obeys R (emit o : Prog σ ω PUnit) := h

theorem Obeys.ite {c : Prop} [Decidable c] {m m' : Prog σ ω α} (h : Obeys R m)
    (h' : Obeys R m') : Obeys R (if c then m else m') := by
  split
  · exact h
  · exact h'

theorem Obeys.forEach (hR : Composable R) {f : β → Prog σ ω PUnit} {bs : List β}
    (hf : ∀ b ∈ bs, Obeys R (f b)) : Obeys R (forEach f bs) := by
  induction bs with
  | nil => exact Obeys.pure hR _
  | cons b bs ih =>
    rw [forEach_cons]
    refine Obeys.bind hR (hf b List.mem_cons_self) fun _ => ?_
    exact ih fun c hc => hf c (List.mem_cons_of_mem _ hc)

/-- **The loop rule for exceptions.**  A loop runs to its end exactly when every turn does, if the
turns keep what decides about the later ones. -/
theorem forEach_isSome_iff {I : σ → Prop} {Q : β → Prop} {f : β → Prog σ ω PUnit} {bs : List β}
    (hI : ∀ b ∈ bs, ∀ t, I t → I (f b t).state)
    (hQ : ∀ b ∈ bs, ∀ t, I t → ((f b t).result.isSome ↔ Q b)) :
    ∀ {s : σ}, I s → ((forEach f bs s).result.isSome ↔ ∀ b ∈ bs, Q b) := by
  induction bs with
  | nil =>
    intro s _
    simp [forEach_nil]
  | cons b bs ih =>
    intro s hs
    have hb := hQ b List.mem_cons_self s hs
    rw [forEach_cons, List.forall_mem_cons, ← hb]
    cases hres : (f b s).result with
    | none =>
      rw [bind_of_none hres]
      simp
    | some a =>
      rw [bind_of_some hres, Outcome.prepend_result,
        ih (fun c hc => hI c (List.mem_cons_of_mem _ hc))
          (fun c hc => hQ c (List.mem_cons_of_mem _ hc)) (hI b List.mem_cons_self s hs)]
      simp

/-- What the turns of a complete loop put out, the loop puts out. -/
theorem mem_forEach_output {I : σ → Prop} {P : β → List ω → Prop} {f : β → Prog σ ω PUnit}
    {bs : List β} (hI : ∀ b ∈ bs, ∀ t, I t → I (f b t).state)
    (hP : ∀ b ∈ bs, ∀ t, I t → (f b t).result.isSome → P b (f b t).output)
    (hmono : ∀ b os os' os'', P b os → P b (os' ++ os ++ os'')) :
    ∀ {s : σ}, I s → (forEach f bs s).result.isSome → ∀ b ∈ bs, P b (forEach f bs s).output := by
  induction bs with
  | nil =>
    intro s _ _ b hb
    cases hb
  | cons b bs ih =>
    intro s hs hdone c hc
    rw [forEach_cons] at hdone ⊢
    cases hres : (f b s).result with
    | none =>
      rw [bind_of_none hres] at hdone
      cases hdone
    | some a =>
      rw [bind_of_some hres] at hdone ⊢
      rcases List.mem_cons.mp hc with rfl | hc
      · exact hmono c _ [] _ (hP c List.mem_cons_self s hs (by rw [hres]; rfl))
      · have hrest := ih (fun c hc => hI c (List.mem_cons_of_mem _ hc))
          (fun c hc => hP c (List.mem_cons_of_mem _ hc)) (hI b List.mem_cons_self s hs) hdone c hc
        have := hmono c _ (f b s).output [] hrest
        rw [List.append_nil] at this
        exact this

theorem output_prefix_bind (m : Prog σ ω α) (f : α → Prog σ ω β) (s : σ) :
    (m s).output <+: ((m >>= f) s).output := by
  cases hres : (m s).result with
  | none => exact ⟨[], by rw [bind_of_none hres, List.append_nil]⟩
  | some a =>
    rw [bind_of_some hres]
    exact List.prefix_append _ _

/-- What a turn puts out is part of what the loop puts out. -/
theorem output_infix_forEach {f : β → Prog σ ω PUnit} {b : β} {bs cs : List β} :
    ∀ {s : σ}, (forEach f bs s).result.isSome →
      (f b (forEach f bs s).state).output <:+: (forEach f (bs ++ b :: cs) s).output := by
  induction bs with
  | nil => exact fun _ => (output_prefix_bind _ _ _).isInfix
  | cons c bs ih =>
    intro s hdone
    rw [forEach_cons] at hdone
    rw [forEach_cons, List.cons_append, forEach_cons]
    cases hres : (f c s).result with
    | none =>
      rw [bind_of_none hres] at hdone
      cases hdone
    | some a =>
      rw [bind_of_some hres] at hdone
      rw [bind_of_some hres, bind_of_some hres]
      exact (ih hdone).trans (List.suffix_append _ _).isInfix

/-- A loop whose turns put out one thing each, as long as none is left by an exception. -/
theorem forEach_outputs {I : σ → Prop} {P : β → ω → Prop} {f : β → Prog σ ω PUnit} {bs : List β}
    (hI : ∀ b ∈ bs, ∀ t, I t → I (f b t).state)
    (hP : ∀ b ∈ bs, ∀ t, I t → ((f b t).result = none ∧ (f b t).output = []) ∨
      ((f b t).result.isSome ∧ ∃ o, (f b t).output = [o] ∧ P b o)) :
    ∀ {s : σ}, I s → ∃ n, List.Forall₂ P (bs.take n) (forEach f bs s).output ∧
      ((forEach f bs s).result.isSome → bs.length ≤ n) := by
  induction bs with
  | nil => exact fun _ => ⟨0, .nil, fun _ => Nat.le_refl _⟩
  | cons b bs ih =>
    intro s hs
    rw [forEach_cons]
    rcases hP b List.mem_cons_self s hs with ⟨hnone, hout⟩ | ⟨hsome, o, hout, ho⟩
    · rw [bind_of_none hnone]
      refine ⟨0, ?_, fun h => by cases h⟩
      rw [List.take_zero]
      exact hout ▸ .nil
    · obtain ⟨a, ha⟩ := Option.isSome_iff_exists.mp hsome
      obtain ⟨n, hn, hlen⟩ := ih (fun c hc => hI c (List.mem_cons_of_mem _ hc))
        (fun c hc => hP c (List.mem_cons_of_mem _ hc)) (hI b List.mem_cons_self s hs)
      rw [bind_of_some ha]
      refine ⟨n + 1, ?_, fun h => Nat.succ_le_succ (hlen h)⟩
      show List.Forall₂ P (b :: bs.take n) ((f b s).output ++ _)
      rw [hout]
      exact .cons ho hn

/-! ### Programs that return -/

/-- No run of the program is left by an exception. -/
def Returns (m : Prog σ ω α) : Prop := ∀ s, (m s).result.isSome

theorem Returns.pure (a : α) : Returns (Pure.pure a : Prog σ ω α) := fun _ => rfl

theorem Returns.emit (o : ω) : Returns (emit o : Prog σ ω PUnit) := fun _ => rfl

theorem Returns.ofOption {o : Option α} (h : o.isSome) : Returns (ofOption o : Prog σ ω α) := by
  cases o with
  | none => cases h
  | some a => exact Returns.pure a

theorem Returns.bind {m : Prog σ ω α} {f : α → Prog σ ω β} (hm : Returns m)
    (hf : ∀ a, Returns (f a)) : Returns (m >>= f) := by
  intro s
  obtain ⟨a, ha⟩ := Option.isSome_iff_exists.mp (hm s)
  rw [bind_of_some ha, Outcome.prepend_result]
  exact hf a _

theorem Returns.get_bind {f : σ → Prog σ ω β} (hf : ∀ s, Returns (f s)) : Returns (get >>= f) :=
  fun s => hf s s

theorem Returns.modify_bind {g : σ → σ} {f : PUnit → Prog σ ω β} (hf : Returns (f ⟨⟩)) :
    Returns (modify g >>= f) := fun s => hf (g s)

theorem Returns.ite {c : Prop} [Decidable c] {m m' : Prog σ ω α} (h : Returns m)
    (h' : Returns m') : Returns (if c then m else m') := by
  split
  · exact h
  · exact h'

theorem Returns.forEach {f : β → Prog σ ω PUnit} {bs : List β} (hf : ∀ b ∈ bs, Returns (f b)) :
    Returns (forEach f bs) := by
  induction bs with
  | nil => exact Returns.pure _
  | cons b bs ih =>
    rw [forEach_cons]
    apply Returns.bind (hf b List.mem_cons_self)
    intro _
    exact ih fun c hc => hf c (List.mem_cons_of_mem _ hc)

/-! ### Pre- and postconditions -/

/-- From outputs and a state with `P` a run comes to outputs and a state with `Q`.  Unless `total`,
this is said of the runs that are not left by an exception. -/
def Ensures (total : Bool) (P : List ω → σ → Prop) (m : Prog σ ω α) (Q : List ω → σ → Prop) : Prop :=
  ∀ os s, P os s → (total = false → (m s).result.isSome) →
    (m s).result.isSome ∧ Q (os ++ (m s).output) (m s).state

section Ensures

variable {total : Bool} {P Q T : List ω → σ → Prop}

theorem Ensures.pure (a : α) : Ensures total P (Pure.pure a : Prog σ ω α) P := by
  intro os s hs _
  show _ ∧ P (os ++ []) s
  rw [List.append_nil]
  exact ⟨rfl, hs⟩

theorem Ensures.modify {f : σ → σ} (h : ∀ os s, P os s → Q os (f s)) :
    Ensures total P (modify f : Prog σ ω PUnit) Q := by
  intro os s hs _
  show _ ∧ Q (os ++ []) (f s)
  rw [List.append_nil]
  exact ⟨rfl, h os s hs⟩

theorem Ensures.bind {m : Prog σ ω α} {f : α → Prog σ ω β} (hm : Ensures total P m Q)
    (hf : ∀ a, Ensures total Q (f a) T) : Ensures total P (m >>= f) T := by
  intro os s hs hdone
  obtain ⟨hsome, hq⟩ := hm os s hs fun ht => by
    obtain ⟨a, ha, -⟩ := bind_of_isSome (hdone ht)
    rw [ha]
    rfl
  obtain ⟨a, hres⟩ := Option.isSome_iff_exists.mp hsome
  rw [bind_of_some hres] at hdone ⊢
  rw [Outcome.prepend_output, ← List.append_assoc]
  exact hf a _ _ hq hdone

/-- What follows a read of the state may use which state it was. -/
theorem Ensures.get_bind {f : σ → Prog σ ω β}
    (h : ∀ s₀, Ensures total (fun os s => P os s ∧ s = s₀) (f s₀) Q) :
    Ensures total P (get >>= f) Q :=
  fun os s hs => h s os s ⟨hs, rfl⟩

/-- A change and its observation are one step. -/
theorem Ensures.modify_emit_bind {f : σ → σ} {o : ω} {m : Prog σ ω β}
    (h : ∀ os s, P os s → Q (os ++ [o]) (f s)) (hm : Ensures total Q m T) :
    Ensures total P (Prog.modify f >>= fun _ => Prog.emit o >>= fun _ => m) T := by
  intro os s hs hdone
  show _ ∧ T (os ++ ([o] ++ (m (f s)).output)) (m (f s)).state
  rw [← List.append_assoc]
  exact hm _ _ (h os s hs) hdone

theorem Ensures.ite {c : Prop} [Decidable c] {m m' : Prog σ ω α} (h : c → Ensures total P m Q)
    (h' : ¬ c → Ensures total P m' Q) : Ensures total P (if c then m else m') Q := by
  split
  · rename_i hc
    exact h hc
  · rename_i hc
    exact h' hc

theorem Ensures.of_imp {m : Prog σ ω α} (h : ∀ os s, P os s → Q os s) (hm : Ensures total Q m T) :
    Ensures total P m T := fun os s hs => hm os s (h os s hs)

/-- What a relation says about every run. -/
theorem Ensures.of_obeys {m : Prog σ ω α} (hm : Obeys R m) (hret : total = true → Returns m)
    (h : ∀ os s os' t, P os s → R s os' t → Q (os ++ os') t) : Ensures total P m Q := by
  intro os s hs hdone
  refine ⟨?_, h os s _ _ hs (hm s)⟩
  cases total with
  | false => exact hdone rfl
  | true => exact hret rfl s

end Ensures

/-! ### Runs -/

/-- **The run rule.**  What every handler obeys, every run of the event loop obeys. -/
theorem Obeys.eventLoop (hR : Composable R) {step : ε → Prog σ ω PUnit} {es : List ε}
    (h : ∀ e ∈ es, Obeys R (step e)) : Obeys R (eventLoop step es) := by
  induction es with
  | nil => exact Obeys.pure hR _
  | cons e es ih =>
    intro s
    refine hR.trans (h e List.mem_cons_self s) ?_
    exact ih (fun e' he' => h e' (List.mem_cons_of_mem _ he')) _

/-- Preservation of a state predicate is a composable relation. -/
theorem composable_preserves (P : σ → Prop) :
    Composable (fun (s : σ) (_ : List ω) t => P s → P t) :=
  ⟨fun _ h => h, fun h h' hs => h' (h hs)⟩

/-- A predicate that every handler preserves holds after every run that starts in it. -/
theorem eventLoop_invariant {P : σ → Prop} {step : ε → Prog σ ω PUnit} {es : List ε} {s : σ}
    (hstep : ∀ e ∈ es, ∀ t, P t → P (step e t).state) (hs : P s) :
    P (Prog.eventLoop step es s).state :=
  Obeys.eventLoop (R := fun s (_ : List ω) t => P s → P t) (composable_preserves P)
    (fun e he t ht => hstep e he t ht) s hs

/-- **A property of the states of a run** that every event keeps exactly under a condition holds in
all of them exactly when every event meets the condition, in the state it finds. -/
theorem throughout_iff {stateAfter : List ε → σ} {P : σ → Prop} {Q : σ → ε → Prop}
    (hstart : P (stateAfter []))
    (hstep : ∀ before e, P (stateAfter before) →
      (P (stateAfter (before ++ [e])) ↔ Q (stateAfter before) e)) (es : List ε) :
    (∀ before, before <+: es → P (stateAfter before)) ↔
      ∀ before e, before ++ [e] <+: es → Q (stateAfter before) e := by
  constructor
  · intro h before e hes
    have hbefore := h before ((List.prefix_append before [e]).trans hes)
    exact (hstep before e hbefore).mp (h _ hes)
  · intro h before
    induction before using List.reverseRecOn with
    | nil => exact fun _ => hstart
    | append_singleton before e ih =>
      intro hes
      have hbefore := ih ((List.prefix_append before [e]).trans hes)
      exact (hstep before e hbefore).mpr (h before e hes)

end Prog
