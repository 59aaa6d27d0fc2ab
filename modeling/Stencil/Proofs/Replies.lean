/-!
# Objects that are called again and again

An object answers calls one after another, each on what the call before has left. Two objects that
go together call by call give the same answers (`replies_agree`), and what an answer has brought
about stays if no call undoes it (`replies_latch`).
-/

set_option autoImplicit false

namespace Stencil

variable {S T C A : Type}

/-- The answers to calls in turn, and what is left behind them. A step answers and goes on whether
or not it fails, so a sequence of calls is never cut short. -/
def replies (step : S → C → A × S) : S → List C → List A × S
  | s, [] => ([], s)
  | s, c :: cs =>
    let (a, s) := step s c
    let (as, s) := replies step s cs
    (a :: as, s)

variable {step : S → C → A × S} {step' : T → C → A × T} {s : S} {t : T}

theorem replies_cons (s : S) (c : C) (cs : List C) :
    replies step s (c :: cs) = ((step s c).1 :: (replies step (step s c).2 cs).1,
      (replies step (step s c).2 cs).2) := rfl

theorem replies_agree {R : S → T → Prop}
    (hstep : ∀ s t c, R s t → (step s c).1 = (step' t c).1 ∧ R (step s c).2 (step' t c).2)
    (hst : R s t) (cs : List C) :
    (replies step s cs).1 = (replies step' t cs).1 ∧
      R (replies step s cs).2 (replies step' t cs).2 := by
  induction cs generalizing s t with
  | nil => exact ⟨rfl, hst⟩
  | cons c cs ih =>
    obtain ⟨hanswer, hnext⟩ := hstep s t c hst
    obtain ⟨hanswers, hlast⟩ := ih hnext
    rw [replies_cons, replies_cons, hanswer, hanswers]
    exact ⟨rfl, hlast⟩

theorem replies_kept {Q : S → Prop} (hkept : ∀ s c, Q s → Q (step s c).2) (hs : Q s)
    (cs : List C) : Q (replies step s cs).2 := by
  induction cs generalizing s with
  | nil => exact hs
  | cons c cs ih => exact ih (hkept s c hs)

theorem replies_forall {Q : S → Prop} {P : A → Prop} (hkept : ∀ s c, Q s → Q (step s c).2)
    (hanswer : ∀ s c, Q s → P (step s c).1) (hs : Q s) (cs : List C) :
    ∀ a ∈ (replies step s cs).1, P a := by
  induction cs generalizing s with
  | nil => exact fun a ha => absurd ha (by simp [replies])
  | cons c cs ih =>
    rw [replies_cons]
    exact List.forall_mem_cons.2 ⟨hanswer s c hs, ih (hkept s c hs)⟩

theorem replies_latch {Q : S → Prop} {a : A} (hkept : ∀ s c, Q s → Q (step s c).2)
    (hset : ∀ s c, (step s c).1 = a → Q (step s c).2) {cs : List C}
    (ha : a ∈ (replies step s cs).1) : Q (replies step s cs).2 := by
  induction cs generalizing s with
  | nil => exact absurd ha (by simp [replies])
  | cons c cs ih =>
    rw [replies_cons] at ha ⊢
    rcases List.mem_cons.1 ha with rfl | hlater
    · exact replies_kept hkept (hset s c rfl) cs
    · exact ih hlater

end Stencil
