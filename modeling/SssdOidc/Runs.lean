/-! Runs of a transition system whose steps are chosen by labels. `may` restricts the
steps of a run, by the label and by the state before the step. -/
namespace SssdOidc.Runs

variable {σ ℓ : Type}

inductive Reach (step : σ → ℓ → Option σ) (may : σ → ℓ → Prop) (first : σ) : σ → Prop where
  | start : Reach step may first first
  | next {s s'} (sofar : Reach step may first s) (l : ℓ) (chosen : may s l)
      (move : step s l = some s') : Reach step may first s'

variable {step : σ → ℓ → Option σ} {may may' : σ → ℓ → Prop} {first s : σ}

theorem reachInvariant (inv : σ → Prop) (begins : inv first)
    (keeps : ∀ s l s', Reach step may first s → inv s → may s l → step s l = some s' → inv s')
    (run : Reach step may first s) : inv s := by
  induction run with
  | start => exact begins
  | next sofar l chosen move ih => exact keeps _ l _ sofar ih chosen move

theorem reachWhile (holds : ∀ s l, Reach step may first s → may s l → may' s l) (run : Reach step may first s) :
    Reach step may' first s := by
  induction run with
  | start => exact .start
  | next sofar l chosen move ih => exact .next ih l (holds _ l sofar chosen) move

theorem reachMono (weaker : ∀ s l, may s l → may' s l) (run : Reach step may first s) :
    Reach step may' first s := reachWhile (fun s l _ => weaker s l) run

theorem reachInto (inv : σ → Prop) (begins : inv first)
    (keeps : ∀ s l s', Reach step may' first s → inv s → may s l → step s l = some s' → may' s l ∧ inv s')
    (run : Reach step may first s) : Reach step may' first s ∧ inv s := by
  induction run with
  | start => exact ⟨.start,begins⟩
  | next sofar l chosen move ih =>
    obtain ⟨allowed,holds⟩ := keeps _ l _ ih.1 ih.2 chosen move
    exact ⟨.next ih.1 l allowed move,holds⟩

theorem reachTrans {mid : σ} (left : Reach step may first mid) (right : Reach step may mid s) :
    Reach step may first s := by
  induction right with
  | start => exact left
  | next sofar l chosen move ih => exact .next ih l chosen move

def replay (step : σ → ℓ → Option σ) (may : σ → ℓ → Prop) [∀ s l, Decidable (may s l)] :
    σ → List ℓ → Option σ
  | s, [] => some s
  | s, l :: rest => if may s l then (step s l).bind (fun s' => replay step may s' rest) else none

theorem replayReach [∀ s l, Decidable (may s l)] {labels : List ℓ}
    (done : replay step may first labels = some s) : Reach step may first s := by
  induction labels generalizing first with
  | nil => cases done; exact .start
  | cons l rest ih =>
    simp only [replay] at done
    split at done <;> try contradiction
    rename_i chosen
    obtain ⟨mid, move, onward⟩ := Option.bind_eq_some_iff.mp done
    exact reachTrans (.next .start l chosen move) (ih onward)

end SssdOidc.Runs
