/-
# Loops of commands

`untilStop` goes over a list until a turn stops it: the value of a turn says
whether to go on. Loops over a concatenation are loops one after the other,
and turns that agree on every element make the same loop, which is how a loop
over a whole is cut into loops over its parts. `loop` repeats one turn until
it returns, under a measure that every turn that does not return decreases.
-/
import Termivar.Command

namespace Termivar.Command

variable {σ ε α β γ δ : Type}

/-! ### Over a list -/

/-- Go on with `x` unless something stopped it before. -/
def unlessStopped (stop : Option δ) (x : Command σ ε (Option δ)) : Command σ ε (Option δ) :=
  match stop with
  | some d => pure (some d)
  | none => x

/-- Turn after turn until one stops the loop. -/
def untilStop (f : γ → Command σ ε (Option δ)) : List γ → Command σ ε (Option δ)
  | [] => pure none
  | x :: xs => do
    let stop ← f x
    unlessStopped stop (untilStop f xs)

variable {f g : γ → Command σ ε (Option δ)}

theorem untilStop_append (xs ys : List γ) : untilStop f (xs ++ ys) =
    untilStop f xs >>= fun stop => unlessStopped stop (untilStop f ys) := by
  induction xs with
  | nil => rfl
  | cons x xs ih =>
    rw [List.cons_append, untilStop, untilStop, ih, bind_assoc]
    congr 1
    funext stop
    cases stop <;> rfl

/-- A loop that stopped on the front of a list stops on the list. -/
theorem untilStop_append_of_stop {xs : List γ} (ys : List γ) {s t : σ} {d : δ}
    (h : untilStop f xs s = .ok (some d) t) : untilStop f (xs ++ ys) s = .ok (some d) t := by
  rw [untilStop_append]
  simp only [Bind.bind, h]
  rfl

/-- A loop that went through the front of a list goes on with the rest. -/
theorem untilStop_append_of_none {xs : List γ} (ys : List γ) {s t : σ}
    (h : untilStop f xs s = .ok none t) : untilStop f (xs ++ ys) s = untilStop f ys t := by
  rw [untilStop_append]
  simp only [Bind.bind, h]
  rfl

theorem untilStop_congr : ∀ {xs : List γ}, (∀ x ∈ xs, f x = g x) → untilStop f xs = untilStop g xs
  | [], _ => rfl
  | x :: xs, h => by
    rw [untilStop, untilStop, h x List.mem_cons_self,
      untilStop_congr fun y hy => h y (List.mem_cons_of_mem _ hy)]

theorem untilStop_map (h : β → γ) : ∀ xs : List β,
    untilStop f (xs.map h) = untilStop (fun x => f (h x)) xs
  | [] => rfl
  | x :: xs => by rw [List.map_cons, untilStop, untilStop, untilStop_map h xs]

variable {err : ε → σ → Prop} {pan : Prop}

/-- If every turn goes on with `I` of what is left, or stops with `Q`, so does
the loop. -/
theorem wp_untilStop {I : List γ → σ → Prop} {Q : δ → σ → Prop} :
    ∀ {xs : List γ} {s : σ}, I xs s → (∀ x xs s, I (x :: xs) s →
        wp (f x) (fun stop t => stop.elim (I xs t) (Q · t)) err pan s) →
      wp (untilStop f xs) (fun stop t => stop.elim (I [] t) (Q · t)) err pan s
  | [], s, h, _ => h
  | x :: xs, s, h, hturn => by
    rw [untilStop, wp_bind]
    refine wp_imp (hturn x xs s h) fun stop t hstop => ?_
    cases stop with
    | some d => exact hstop
    | none => exact wp_untilStop hstop hturn

/-! ### Until a turn returns -/

/-- Repeat the turn until it returns a value. -/
def loop (turn : Command σ ε (Option α)) (measure : σ → Nat)
    (hdecreases : ∀ {s t}, turn s = .ok none t → measure t < measure s) : Command σ ε α := fun s =>
  match _hturn : turn s with
  | .ok (some a) t => .ok a t
  | .ok none t => loop turn measure hdecreases t
  | .error e t => .error e t
  | .panic => .panic
termination_by s => measure s
decreasing_by exact hdecreases _hturn

theorem loop_eq {turn : Command σ ε (Option α)} {measure : σ → Nat}
    {hdecreases : ∀ {s t}, turn s = .ok none t → measure t < measure s} (s : σ) :
    loop turn measure hdecreases s = match turn s with
      | .ok (some a) t => .ok a t
      | .ok none t => loop turn measure hdecreases t
      | .error e t => .error e t
      | .panic => .panic := by
  rw [loop]
  split <;> simp [*]

/-- What every turn keeps until it returns holds at the end of the loop. -/
theorem wp_loop {turn : Command σ ε (Option α)} {measure : σ → Nat}
    {hdecreases : ∀ {s t}, turn s = .ok none t → measure t < measure s} {I : σ → Prop}
    {ok : α → σ → Prop}
    (hturn : ∀ s, I s → wp turn (fun o t => o.elim (I t) (ok · t)) err pan s) (s : σ) (hI : I s) :
    wp (loop turn measure hdecreases) ok err pan s := by
  induction hm : measure s using Nat.strong_induction_on generalizing s with
  | _ m ih =>
    have hs := hturn s hI
    unfold wp at hs ⊢
    rw [loop_eq]
    rcases h : turn s with ⟨_ | a, t⟩ | ⟨e, t⟩ | _
    · rw [h] at hs
      exact ih (measure t) (hm ▸ hdecreases h) t hs rfl
    · rw [h] at hs
      exact hs
    · rw [h] at hs
      exact hs
    · rw [h] at hs
      exact hs

end Termivar.Command
