import DartProtocol.EffectProgram

/-!
# Two runs of a program side by side

A statement about two runs, such as *what is put out does not depend on a secret part of the state*,
follows the program text as an invariant does.  Two kinds of rules are provided:

* `Commutes w m` — changing the state by `w` before `m` comes to the same as changing it afterwards:
  `m` neither reads nor writes what `w` changes;
* `PairedAt S O m m' s s'` — from `s` and `s'` the programs `m` and `m'` have the same value (or are both
  left by an exception), reach states that are related by `S`, and put out lists that are related by
  `O`.
-/

universe u

namespace Outcome

variable {σ ω α : Type u}

/-- Change the state that was reached. -/
def mapState (w : σ → σ) (r : Outcome σ ω α) : Outcome σ ω α := ⟨r.result, w r.state, r.output⟩

end Outcome

namespace Prog

variable {σ ω α β : Type u}

/-! ### Programs that do not touch a part of the state -/

/-- The change `w` of the state passes through the program. -/
def Commutes (w : σ → σ) (m : Prog σ ω α) : Prop := ∀ s, m (w s) = (m s).mapState w

namespace Commutes

variable {w : σ → σ}

theorem pure (a : α) : Commutes w (Pure.pure a : Prog σ ω α) := fun _ => rfl

theorem throw : Commutes w (throw : Prog σ ω α) := fun _ => rfl

theorem emit (o : ω) : Commutes w (emit o : Prog σ ω PUnit) := fun _ => rfl

theorem ofOption (o : Option α) : Commutes w (ofOption o : Prog σ ω α) := by
  cases o with
  | none => exact throw
  | some a => exact pure a

theorem modify {f : σ → σ} (h : ∀ s, f (w s) = w (f s)) :
    Commutes w (modify f : Prog σ ω PUnit) := by
  intro s
  show (⟨some ⟨⟩, f (w s), []⟩ : Outcome σ ω PUnit) = ⟨some ⟨⟩, w (f s), []⟩
  rw [h]

theorem bind {m : Prog σ ω α} {f : α → Prog σ ω β} (hm : Commutes w m) (hf : ∀ a, Commutes w (f a)) :
    Commutes w (m >>= f) := by
  intro s
  rw [bind_run, bind_run, hm s]
  have hres : ((m s).mapState w).result = (m s).result := rfl
  rw [hres]
  cases (m s).result with
  | none => rfl
  | some a =>
    show (f a (w (m s).state)).prepend (m s).output = _
    rw [hf a]
    rfl

theorem ofOption_bind {o : Option α} {f : α → Prog σ ω β} (hf : ∀ a, Commutes w (f a)) :
    Commutes w (Prog.ofOption o >>= f) := bind (ofOption o) hf

/-- Reading the state is harmless when what follows does not use the part that `w` changes. -/
theorem get_bind {f : σ → Prog σ ω β} (hread : ∀ s, f (w s) = f s) (hf : ∀ s, Commutes w (f s)) :
    Commutes w (get >>= f) := by
  intro s
  show f (w s) (w s) = (f s s).mapState w
  rw [hread, hf s s]

theorem attempt {m : Prog σ ω α} (hm : Commutes w m) : Commutes w (attempt m) := by
  intro s
  rw [attempt_run, attempt_run, hm s]
  rfl

theorem ite {c : Prop} [Decidable c] {m m' : Prog σ ω α} (h : Commutes w m) (h' : Commutes w m') :
    Commutes w (if c then m else m') := by
  split
  · exact h
  · exact h'

theorem forEach {f : β → Prog σ ω PUnit} (hf : ∀ b, Commutes w (f b)) (bs : List β) :
    Commutes w (forEach f bs) := by
  induction bs with
  | nil => exact pure _
  | cons b bs ih =>
    rw [forEach_cons]
    exact bind (hf b) fun _ => ih

end Commutes

/-! ### Two programs from two states -/

/-- The two runs have the same value, related states and related outputs. -/
structure PairedAt (S : σ → σ → Prop) (O : List ω → List ω → Prop) (m m' : Prog σ ω α) (s s' : σ) :
    Prop where
  result : (m s).result = (m' s').result
  state : S (m s).state (m' s').state
  output : O (m s).output (m' s').output

/-- Outputs are related piece by piece. -/
structure Pieces (O : List ω → List ω → Prop) : Prop where
  refl : ∀ os, O os os
  append : ∀ {a a' b b' : List ω}, O a a' → O b b' → O (a ++ b) (a' ++ b')

namespace PairedAt

variable {S : σ → σ → Prop} {O : List ω → List ω → Prop}

theorem pure (hO : Pieces O) (a : α) {s s' : σ} (hs : S s s') :
    PairedAt S O (Pure.pure a : Prog σ ω α) (Pure.pure a) s s' := ⟨rfl, hs, hO.refl _⟩

theorem throw (hO : Pieces O) {s s' : σ} (hs : S s s') :
    PairedAt S O (throw : Prog σ ω α) throw s s' := ⟨rfl, hs, hO.refl _⟩

theorem modify (hO : Pieces O) {f f' : σ → σ} {s s' : σ} (h : S (f s) (f' s')) :
    PairedAt S O (modify f : Prog σ ω PUnit) (modify f') s s' := ⟨rfl, h, hO.refl _⟩

theorem emit {o o' : ω} {s s' : σ} (hs : S s s') (ho : O [o] [o']) :
    PairedAt S O (emit o : Prog σ ω PUnit) (emit o') s s' := ⟨rfl, hs, ho⟩

theorem get_bind {f f' : σ → Prog σ ω β} {s s' : σ} (h : PairedAt S O (f s) (f' s') s s') :
    PairedAt S O (get >>= f) (get >>= f') s s' := ⟨h.result, h.state, h.output⟩

theorem bind (hO : Pieces O) {m m' : Prog σ ω α} {f f' : α → Prog σ ω β} {s s' : σ}
    (hm : PairedAt S O m m' s s')
    (hf : ∀ a, (m s).result = some a → S (m s).state (m' s').state →
      PairedAt S O (f a) (f' a) (m s).state (m' s').state) :
    PairedAt S O (m >>= f) (m' >>= f') s s' := by
  have hres := hm.result
  cases h : (m s).result with
  | none =>
    rw [h] at hres
    refine ⟨?_, ?_, ?_⟩ <;> rw [bind_of_none h, bind_of_none hres.symm]
    · exact hm.state
    · exact hm.output
  | some a =>
    rw [h] at hres
    have ha := hf a h hm.state
    refine ⟨?_, ?_, ?_⟩ <;> rw [bind_of_some h, bind_of_some hres.symm]
    · exact ha.result
    · exact ha.state
    · exact hO.append hm.output ha.output

theorem attempt {m m' : Prog σ ω α} {s s' : σ} (h : PairedAt S O m m' s s') :
    PairedAt S O (attempt m) (attempt m') s s' := ⟨congrArg some h.result, h.state, h.output⟩

/-- A program that does not touch what is changed behaves the same from the changed state. -/
theorem of_commutes (hO : Pieces O) {m : Prog σ ω α} {w : σ → σ} {s : σ} (hm : Commutes w m)
    (hS : S (m s).state (w (m s).state)) : PairedAt S O m m s (w s) := by
  refine ⟨?_, ?_, ?_⟩ <;> rw [hm s]
  · rfl
  · exact hS
  · exact hO.refl _

end PairedAt

end Prog
