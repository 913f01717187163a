/-
# Commands on a shared state

A command runs under the lock of one state: it returns a value or an error
and leaves a state behind in both cases, or it panics. A command that fails
after it has begun to write leaves what it wrote, so that a failure leaves
the state alone is something to prove (`Command.wp` with an `err` that says
so), not something the type gives.

`Command.wp` is the weakest precondition of a command for what it must
establish when it returns, when it fails and when it panics. The `wp_`
equations unfold it over a command's text, `wp_mono` is the rule of
consequence; `Checked.wp` is the same for a check that only reads.
-/
import Mathlib

namespace Termivar

open List Option

/-- What a command leaves behind. -/
inductive Outcome (ε σ α : Type) where
  | ok (value : α) (state : σ)
  | error (failure : ε) (state : σ)
  | panic

/-- A computation that runs under the lock of a state `σ`. -/
def Command (σ ε α : Type) : Type := σ → Outcome ε σ α

namespace Command

variable {σ ε α β : Type}

instance : Monad (Command σ ε) where
  pure a := fun s => .ok a s
  bind x f := fun s =>
    match x s with
    | .ok a s' => f a s'
    | .error e s' => .error e s'
    | .panic => .panic

instance : LawfulMonad (Command σ ε) := LawfulMonad.mk' _
  (fun x => by
    funext s
    show (match x s with | .ok a t => Outcome.ok a t | .error e t => .error e t | .panic => .panic) =
      x s
    cases x s <;> rfl)
  (fun _ _ => rfl)
  (fun x f g => by
    funext s
    simp only [bind]
    cases x s <;> rfl)

instance : MonadStateOf σ (Command σ ε) where
  get := fun s => .ok s s
  set t := fun _ => .ok () t
  modifyGet f := fun s => .ok (f s).1 (f s).2

instance : MonadExceptOf ε (Command σ ε) where
  throw e := fun s => .error e s
  tryCatch x handle := fun s =>
    match x s with
    | .error e s' => handle e s'
    | r => r

/-- A check that only reads may be made inside a command. -/
instance : MonadLift (Except ε) (Command σ ε) where
  monadLift x := fun s =>
    match x with
    | .ok a => .ok a s
    | .error e => .error e s

/-- The command unwinds instead of returning. -/
def unwind : Command σ ε α := fun _ => .panic

/-- The command's errors, converted. -/
def mapErr {ε' : Type} (f : ε → ε') (x : Command σ ε α) : Command σ ε' α := fun s =>
  match x s with
  | .ok a t => .ok a t
  | .error e t => .error (f e) t
  | .panic => .panic

/-- The command's result as a value: what follows sees the failure. -/
def attempt {ε' : Type} (x : Command σ ε α) : Command σ ε' (Except ε α) := fun s =>
  match x s with
  | .ok a t => .ok (.ok a) t
  | .error e t => .ok (.error e) t
  | .panic => .panic

/-- A command on a part of the state. -/
def zoom {τ : Type} (part : σ → τ) (replace : σ → τ → σ) (x : Command τ ε α) : Command σ ε α := fun s =>
  match x (part s) with
  | .ok a t => .ok a (replace s t)
  | .error e t => .error e (replace s t)
  | .panic => .panic

/-- A command on a local variable: it returns with what the variable holds
at its end, and a failure drops it. -/
def locally {τ : Type} (init : τ) (x : Command τ ε α) : Command σ ε (α × τ) := fun s =>
  match x init with
  | .ok a t => .ok (a, t) s
  | .error e _ => .error e s
  | .panic => .panic

/-- From `s`, the command establishes `ok` when it returns, `err` when it
fails, and `pan` when it panics. -/
def wp (x : Command σ ε α) (ok : α → σ → Prop) (err : ε → σ → Prop) (pan : Prop) (s : σ) : Prop :=
  match x s with
  | .ok a s' => ok a s'
  | .error e s' => err e s'
  | .panic => pan

end Command

/-- The value of an option, or the given error. -/
def okOr {ε α : Type} : Option α → ε → Except ε α
  | some a, _ => .ok a
  | none, e => .error e

namespace Checked

variable {ε α β : Type}

/-- The check establishes `ok` of its value, or `err` of its error. -/
def wp (x : Except ε α) (ok : α → Prop) (err : ε → Prop) : Prop :=
  match x with
  | .ok a => ok a
  | .error e => err e

variable {ok : α → Prop} {err : ε → Prop}

@[simp] theorem wp_pure (a : α) : wp (pure a : Except ε α) ok err ↔ ok a := Iff.rfl

@[simp] theorem wp_ok (a : α) : wp (.ok a : Except ε α) ok err ↔ ok a := Iff.rfl

@[simp] theorem wp_error (e : ε) : wp (.error e : Except ε α) ok err ↔ err e := Iff.rfl

@[simp] theorem wp_throw (e : ε) : wp (throw e : Except ε α) ok err ↔ err e := Iff.rfl

@[simp] theorem wp_bind (x : Except ε β) (f : β → Except ε α) :
    wp (x >>= f) ok err ↔ wp x (fun b => wp (f b) ok err) err := by
  cases x <;> rfl

@[simp] theorem wp_map (f : β → α) (x : Except ε β) :
    wp (f <$> x) ok err ↔ wp x (fun b => ok (f b)) err := by
  cases x <;> rfl

@[simp] theorem wp_ite (c : Prop) [Decidable c] (x y : Except ε α) :
    wp (if c then x else y) ok err ↔ (c → wp x ok err) ∧ (¬ c → wp y ok err) := by
  by_cases h : c <;> simp [h]

@[simp] theorem wp_okOr (o : Option α) (e : ε) :
    wp (okOr o e) ok err ↔ (∀ a, o = some a → ok a) ∧ (o = none → err e) := by
  cases o <;> simp [okOr]

/-- The equations that unfold a check, together. -/
theorem wp_rules :
    (∀ {ε α β : Type} {ok : α → Prop} {err : ε → Prop} (x : Except ε β) (f : β → Except ε α),
      wp (x >>= f) ok err ↔ wp x (fun b => wp (f b) ok err) err) ∧
    (∀ {ε α β : Type} {ok : α → Prop} {err : ε → Prop} (f : β → α) (x : Except ε β),
      wp (f <$> x) ok err ↔ wp x (fun b => ok (f b)) err) ∧
    (∀ {ε α : Type} {ok : α → Prop} {err : ε → Prop} (c : Prop) [Decidable c] (x y : Except ε α),
      wp (if c then x else y) ok err ↔ (c → wp x ok err) ∧ (¬ c → wp y ok err)) ∧
    (∀ {ε α : Type} {ok : α → Prop} {err : ε → Prop} (o : Option α) (e : ε),
      wp (okOr o e) ok err ↔ (∀ a, o = some a → ok a) ∧ (o = none → err e)) ∧
    (∀ {ε α : Type} {ok : α → Prop} {err : ε → Prop} (a : α),
      wp (pure a : Except ε α) ok err ↔ ok a) ∧
    (∀ {ε α : Type} {ok : α → Prop} {err : ε → Prop} (a : α),
      wp (.ok a : Except ε α) ok err ↔ ok a) ∧
    (∀ {ε α : Type} {ok : α → Prop} {err : ε → Prop} (e : ε),
      wp (.error e : Except ε α) ok err ↔ err e) ∧
    ∀ {ε α : Type} {ok : α → Prop} {err : ε → Prop} (e : ε),
      wp (throw e : Except ε α) ok err ↔ err e :=
  ⟨wp_bind, wp_map, wp_ite, wp_okOr, wp_pure, wp_ok, wp_error, wp_throw⟩

theorem wp_mono {ok' : α → Prop} {err' : ε → Prop} {x : Except ε α} (h : wp x ok err)
    (hok : ∀ a, ok a → ok' a) (herr : ∀ e, err e → err' e) : wp x ok' err' := by
  cases x with
  | ok a => exact hok a h
  | error e => exact herr e h

theorem wp_imp {ok' : α → Prop} {x : Except ε α} (h : wp x ok err) (hok : ∀ a, ok a → ok' a) :
    wp x ok' err :=
  wp_mono h hok fun _ he => he

theorem of_wp {x : Except ε α} {a : α} (h : wp x ok err) (hx : x = .ok a) : ok a := by
  rwa [hx] at h

/-- What always holds, every check establishes. -/
theorem wp_of_forall {x : Except ε α} (hok : ∀ a, ok a) (herr : ∀ e, err e) : wp x ok err := by
  cases x with
  | ok a => exact hok a
  | error e => exact herr e

/-- A check that cannot fail passes. -/
theorem eq_ok_of_wp {x : Except ε Unit} (h : wp x (fun _ => True) (fun _ => False)) : x = .ok () := by
  cases x with
  | ok a => rfl
  | error e => exact h.elim

/-- A computation that passes peels apart. -/
theorem bind_eq_ok {x : Except ε β} {f : β → Except ε α} {a : α} :
    x >>= f = .ok a ↔ ∃ b, x = .ok b ∧ f b = .ok a := by
  cases x with
  | ok b =>
    refine ⟨fun h => ⟨b, rfl, h⟩, ?_⟩
    rintro ⟨_, ⟨⟩, h⟩
    exact h
  | error e =>
    constructor
    · rintro ⟨⟩
    · rintro ⟨_, ⟨⟩, -⟩

/-- A list of computations passes if each does. -/
theorem mapM_eq_ok_iff {f : β → Except ε α} : ∀ {xs : List β} {ys : List α},
    xs.mapM f = .ok ys ↔ List.Forall₂ (fun x y => f x = .ok y) xs ys
  | [], ys => by
    cases ys <;> simp [pure, Except.pure]
  | x :: xs, ys => by
    rw [mapM_cons, bind_eq_ok]
    constructor
    · rintro ⟨y, hy, h⟩
      obtain ⟨rest, hrest, h⟩ := bind_eq_ok.mp h
      cases h
      exact .cons hy (mapM_eq_ok_iff.mp hrest)
    · rintro (_ | ⟨hy, hrest⟩)
      exact ⟨_, hy, bind_eq_ok.mpr ⟨_, mapM_eq_ok_iff.mpr hrest, rfl⟩⟩

/-- Every element of the list passes the check. -/
def each {γ : Type} (f : γ → Except ε Unit) : List γ → Except ε Unit
  | [] => pure ()
  | x :: xs => do
    f x
    each f xs

theorem wp_each {γ : Type} {f : γ → Except ε Unit} {P : γ → Prop} : ∀ {xs : List γ},
    (∀ x ∈ xs, wp (f x) (fun _ => P x) err) → wp (each f xs) (fun _ => ∀ x ∈ xs, P x) err
  | [], _ => by simp [each]
  | x :: xs, h => by
    simp only [each, wp_bind]
    refine wp_imp (h x mem_cons_self) fun _ hx => ?_
    refine wp_imp (wp_each fun y hy => h y (mem_cons_of_mem _ hy)) fun _ hxs => ?_
    exact forall_mem_cons.mpr ⟨hx, hxs⟩

/-- A step that keeps `I`, and may only fail with `err`, folds over a list. -/
theorem wp_foldlM {γ β : Type} {f : β → γ → Except ε β} {I : List γ → β → Prop} :
    ∀ {xs : List γ} {b : β}, I xs b →
      (∀ x xs b, I (x :: xs) b → wp (f b x) (fun b' => I xs b') err) →
      wp (xs.foldlM f b) (fun b' => I [] b') err
  | [], b, h, _ => by simpa using h
  | x :: xs, b, h, hstep => by
    rw [foldlM_cons, wp_bind]
    exact wp_imp (hstep x xs b h) (fun b' hb' => wp_foldlM hb' hstep)

end Checked

/-- The parts of a computation that passes. -/
theorem bind_ok {ε α β : Type} {x : Except ε β} {f : β → Except ε α} {a : α} (h : x >>= f = .ok a) :
    ∃ b, x = .ok b ∧ f b = .ok a :=
  Checked.bind_eq_ok.mp h

/-- An element of the second list has one of the first. -/
theorem exists_mem_of_forall₂ {α β : Type} {R : α → β → Prop} {as : List α} {bs : List β}
    (h : List.Forall₂ R as bs) {b : β} (hb : b ∈ bs) : ∃ a ∈ as, R a b := by
  induction h with
  | nil => cases hb
  | cons hr _ ih =>
    rcases mem_cons.mp hb with rfl | hrest
    · exact ⟨_, mem_cons_self, hr⟩
    · obtain ⟨a, ha, har⟩ := ih hrest
      exact ⟨a, mem_cons_of_mem _ ha, har⟩

namespace Command

variable {σ ε α β : Type} {ok : α → σ → Prop} {err : ε → σ → Prop} {pan : Prop} {s : σ}

@[simp] theorem wp_pure (a : α) : wp (pure a : Command σ ε α) ok err pan s ↔ ok a s := Iff.rfl

@[simp] theorem wp_throw (e : ε) : wp (throw e : Command σ ε α) ok err pan s ↔ err e s := Iff.rfl

@[simp] theorem wp_unwind : wp (unwind : Command σ ε α) ok err pan s ↔ pan := Iff.rfl

@[simp] theorem wp_bind (x : Command σ ε β) (f : β → Command σ ε α) :
    wp (x >>= f) ok err pan s ↔ wp x (fun b s' => wp (f b) ok err pan s') err pan s := by
  simp only [wp, Bind.bind]
  cases x s <;> rfl

@[simp] theorem wp_map (f : β → α) (x : Command σ ε β) :
    wp (f <$> x) ok err pan s ↔ wp x (fun b s' => ok (f b) s') err pan s := by
  simp only [wp, Functor.map]
  cases x s <;> rfl

@[simp] theorem wp_ite (c : Prop) [Decidable c] (x y : Command σ ε α) :
    wp (if c then x else y) ok err pan s ↔
      (c → wp x ok err pan s) ∧ (¬ c → wp y ok err pan s) := by
  by_cases h : c <;> simp [h]

@[simp] theorem wp_get {ok : σ → σ → Prop} :
    wp (get : Command σ ε σ) ok err pan s ↔ ok s s := Iff.rfl

@[simp] theorem wp_set {ok : PUnit → σ → Prop} (t : σ) :
    wp (set t : Command σ ε PUnit) ok err pan s ↔ ok ⟨⟩ t := Iff.rfl

@[simp] theorem wp_modify {ok : PUnit → σ → Prop} (f : σ → σ) :
    wp (modify f : Command σ ε PUnit) ok err pan s ↔ ok ⟨⟩ (f s) := Iff.rfl

@[simp] theorem wp_lift (x : Except ε α) :
    wp (liftM x : Command σ ε α) ok err pan s ↔ Checked.wp x (fun a => ok a s) (fun e => err e s) := by
  cases x <;> rfl

@[simp] theorem wp_mapErr {ε' : Type} {err : ε' → σ → Prop} (f : ε → ε') (x : Command σ ε α) :
    wp (mapErr f x) ok err pan s ↔ wp x ok (fun e t => err (f e) t) pan s := by
  simp only [wp, mapErr]
  cases x s <;> rfl

@[simp] theorem wp_attempt {ε' : Type} {ok : Except ε α → σ → Prop} {err : ε' → σ → Prop}
    (x : Command σ ε α) :
    wp (attempt x : Command σ ε' (Except ε α)) ok err pan s ↔
      wp x (fun a t => ok (.ok a) t) (fun e t => ok (.error e) t) pan s := by
  simp only [wp, attempt]
  cases x s <;> rfl

@[simp] theorem wp_tryCatch (x : Command σ ε α) (handle : ε → Command σ ε α) :
    wp (tryCatch x handle) ok err pan s ↔
      wp x ok (fun e t => wp (handle e) ok err pan t) pan s := by
  simp only [wp, tryCatch, tryCatchThe, MonadExceptOf.tryCatch]
  cases x s <;> rfl

@[simp] theorem wp_zoom {τ : Type} (part : σ → τ) (replace : σ → τ → σ) (x : Command τ ε α) :
    wp (zoom part replace x) ok err pan s ↔
      wp x (fun a t => ok a (replace s t)) (fun e t => err e (replace s t)) pan (part s) := by
  simp only [wp, zoom]
  cases x (part s) <;> rfl

@[simp] theorem wp_locally {τ : Type} {ok : α × τ → σ → Prop} (init : τ) (x : Command τ ε α) :
    wp (locally init x : Command σ ε (α × τ)) ok err pan s ↔
      wp x (fun a t => ok (a, t) s) (fun e _ => err e s) pan init := by
  simp only [wp, locally]
  cases x init <;> rfl

/-- The equations that unfold a command, together. -/
theorem wp_rules {σ ε : Type} {pan : Prop} {s : σ} :
    (∀ {α β : Type} {ok : α → σ → Prop} {err : ε → σ → Prop} (x : Command σ ε β)
      (f : β → Command σ ε α),
      wp (x >>= f) ok err pan s ↔ wp x (fun b s' => wp (f b) ok err pan s') err pan s) ∧
    (∀ {α β : Type} {ok : α → σ → Prop} {err : ε → σ → Prop} (f : β → α) (x : Command σ ε β),
      wp (f <$> x) ok err pan s ↔ wp x (fun b s' => ok (f b) s') err pan s) ∧
    (∀ {α : Type} {ok : α → σ → Prop} {err : ε → σ → Prop} (c : Prop) [Decidable c]
      (x y : Command σ ε α),
      wp (if c then x else y) ok err pan s ↔ (c → wp x ok err pan s) ∧ (¬ c → wp y ok err pan s)) ∧
    (∀ {α : Type} {ok : α → σ → Prop} {err : ε → σ → Prop} (a : α),
      wp (pure a : Command σ ε α) ok err pan s ↔ ok a s) ∧
    (∀ {α : Type} {ok : α → σ → Prop} {err : ε → σ → Prop} (e : ε),
      wp (throw e : Command σ ε α) ok err pan s ↔ err e s) ∧
    (∀ {ok : σ → σ → Prop} {err : ε → σ → Prop}, wp (get : Command σ ε σ) ok err pan s ↔ ok s s) ∧
    (∀ {ok : PUnit → σ → Prop} {err : ε → σ → Prop} (t : σ),
      wp (set t : Command σ ε PUnit) ok err pan s ↔ ok ⟨⟩ t) ∧
    (∀ {ok : PUnit → σ → Prop} {err : ε → σ → Prop} (f : σ → σ),
      wp (modify f : Command σ ε PUnit) ok err pan s ↔ ok ⟨⟩ (f s)) ∧
    ∀ {α : Type} {ok : α → σ → Prop} {err : ε → σ → Prop} (x : Except ε α),
      wp (liftM x : Command σ ε α) ok err pan s ↔
        Checked.wp x (fun a => ok a s) (fun e => err e s) :=
  ⟨wp_bind, wp_map, wp_ite, wp_pure, wp_throw, wp_get, wp_set, wp_modify, wp_lift⟩

variable {x : Command σ ε α}

/-- The rule of consequence. -/
theorem wp_mono {ok' : α → σ → Prop} {err' : ε → σ → Prop} {pan' : Prop} (h : wp x ok err pan s)
    (hok : ∀ a t, ok a t → ok' a t) (herr : ∀ e t, err e t → err' e t)
    (hpan : pan → pan') : wp x ok' err' pan' s := by
  unfold wp at h ⊢
  cases hx : x s with
  | ok a t => rw [hx] at h; exact hok a t h
  | error e t => rw [hx] at h; exact herr e t h
  | panic => rw [hx] at h; exact hpan h

theorem wp_imp {ok' : α → σ → Prop} (h : wp x ok err pan s) (hok : ∀ a t, ok a t → ok' a t) :
    wp x ok' err pan s :=
  wp_mono h hok (fun _ _ he => he) id

/-- Two specifications of one command hold together. -/
theorem wp_and {ok' : α → σ → Prop} {err' : ε → σ → Prop} {pan' : Prop} (h : wp x ok err pan s)
    (h' : wp x ok' err' pan' s) :
    wp x (fun a t => ok a t ∧ ok' a t) (fun e t => err e t ∧ err' e t) (pan ∧ pan') s := by
  unfold wp at h h' ⊢
  cases hx : x s with
  | ok a t => rw [hx] at h h'; exact ⟨h, h'⟩
  | error e t => rw [hx] at h h'; exact ⟨h, h'⟩
  | panic => rw [hx] at h h'; exact ⟨h, h'⟩

/-- What always holds, every command establishes. -/
theorem wp_of_forall (hok : ∀ a t, ok a t) (herr : ∀ e t, err e t) (hpan : pan) :
    wp x ok err pan s := by
  unfold wp
  cases x s with
  | ok a t => exact hok a t
  | error e t => exact herr e t
  | panic => exact hpan

/-- A command that can only return `a` and leave `t` behind does. -/
theorem eq_ok_iff_wp {a : α} {t : σ} :
    x s = .ok a t ↔ wp x (fun b u => b = a ∧ u = t) (fun _ _ => False) False s := by
  unfold wp
  cases x s <;> simp

theorem wp_of_eq_ok {a : α} {t : σ} (h : x s = .ok a t) :
    wp x ok err pan s ↔ ok a t := by
  simp only [wp, h]

/-! ### Runs -/

variable {κ : Type}

/-- What the caller of the command sees and the state it leaves behind. -/
def reply (x : Command σ ε α) (s : σ) : Option (Except ε α × σ) :=
  match x s with
  | .ok a t => some (.ok a, t)
  | .error e t => some (.error e, t)
  | .panic => none

/-- A command that establishes something establishes it of its reply. -/
theorem wp_iff_reply : wp x ok err pan s ↔ (∀ a t, reply x s = some (.ok a, t) → ok a t) ∧
      (∀ e t, reply x s = some (.error e, t) → err e t) ∧ (reply x s = none → pan) := by
  unfold wp reply
  cases x s <;> simp

/-- The calls of a run, each with what it returned, and the state at the end.
A panic ends the run. -/
def run (exec : κ → Command σ ε β) : σ → List κ → Option (List (κ × Except ε β) × σ)
  | s, [] => some ([], s)
  | s, c :: cs => do
    let (r, t) ← reply (exec c) s
    let (trace, u) ← run exec t cs
    return ((c, r) :: trace, u)

variable {exec : κ → Command σ ε β}

theorem run_cons_eq_some {c : κ} {cs : List κ} {q : List (κ × Except ε β) × σ} :
    run exec s (c :: cs) = some q ↔ ∃ r t trace u, reply (exec c) s = some (r, t) ∧
      run exec t cs = some (trace, u) ∧ q = ((c, r) :: trace, u) := by
  simp only [run, Option.bind_eq_bind, Option.bind_eq_some_iff, Option.pure_def, Option.some.injEq,
    Prod.exists, eq_comm (a := q)]
  constructor
  · rintro ⟨r, t, h1, trace, u, h2, h3⟩
    exact ⟨r, t, trace, u, h1, h2, h3⟩
  · rintro ⟨r, t, trace, u, h1, h2, h3⟩
    exact ⟨r, t, h1, trace, u, h2, h3⟩

theorem run_append {before after : List κ} : ∀ {s : σ} {q : List (κ × Except ε β) × σ},
    run exec s (before ++ after) = some q ↔ ∃ trace t trace' u, run exec s before = some (trace, t) ∧
      run exec t after = some (trace', u) ∧ q = (trace ++ trace', u) := by
  induction before with
  | nil =>
    rintro s ⟨trace, u⟩
    simp [run]
  | cons c cs ih =>
    intro s q
    rw [cons_append, run_cons_eq_some]
    constructor
    · rintro ⟨r, t, trace, u, hr, hrest, rfl⟩
      obtain ⟨trace₁, t₁, trace₂, u₂, h1, h2, heq⟩ := ih.mp hrest
      cases heq
      exact ⟨(c, r) :: trace₁, t₁, trace₂, u, run_cons_eq_some.mpr ⟨r, t, trace₁, t₁, hr, h1, rfl⟩,
        h2, rfl⟩
    · rintro ⟨trace, t, trace', u, hbef, haft, rfl⟩
      obtain ⟨r, t₁, trace₁, u₁, hr, h1, heq⟩ := run_cons_eq_some.mp hbef
      cases heq
      exact ⟨r, t₁, trace₁ ++ trace', u, hr, ih.mpr ⟨trace₁, t, trace', u, h1, haft, rfl⟩, rfl⟩

theorem run_calls : ∀ {cs : List κ} {s : σ} {q : List (κ × Except ε β) × σ},
    run exec s cs = some q → q.1.map Prod.fst = cs
  | [], s, q, h => by
    simp only [run, some.injEq] at h
    rw [← h]
    rfl
  | c :: cs, s, q, h => by
    obtain ⟨r, t, trace, u, h1, h2, rfl⟩ := run_cons_eq_some.mp h
    rw [map_cons, run_calls h2]

/-- What one more call keeps of the history and the state, every run keeps. -/
theorem run_history {J : List (κ × Except ε β) → σ → Prop}
    (hstep : ∀ {past s c r t}, J past s → reply (exec c) s = some (r, t) → J (past ++ [(c, r)]) t) :
    ∀ {cs : List κ} (past : List (κ × Except ε β)) {s : σ} {q : List (κ × Except ε β) × σ},
      J past s → run exec s cs = some q → J (past ++ q.1) q.2
  | [], past, s, q, hJ, h => by
    simp only [run, some.injEq] at h
    subst h
    simpa using hJ
  | c :: cs, past, s, q, hJ, h => by
    obtain ⟨r, t, trace, u, h1, h2, rfl⟩ := run_cons_eq_some.mp h
    have := run_history hstep _ (hstep hJ h1) h2
    simpa using this

/-- What one more call keeps of the state, every run keeps. -/
theorem run_preserves {I : σ → Prop}
    (hstep : ∀ {s c r t}, I s → reply (exec c) s = some (r, t) → I t) {cs : List κ}
    {q : List (κ × Except ε β) × σ} (hI : I s) (h : run exec s cs = some q) : I q.2 :=
  run_history (J := fun _ u => I u) (fun hs hr => hstep hs hr) [] hI h

/-- A run that also keeps a history: `note` adds a call, the state it met and
its reply to the history. -/
def runNoting {γ : Type} (exec : κ → Command σ ε β) (note : σ → κ → Except ε β → γ → γ) :
    γ → σ → List κ → Option (γ × σ)
  | g, s, [] => some (g, s)
  | g, s, c :: cs => do
    let (r, t) ← reply (exec c) s
    runNoting exec note (note s c r g) t cs

/-- If no call panics and every call keeps `J` of the history and the state,
every run reaches its end and keeps `J`. -/
theorem runNoting_total {γ : Type} {note : σ → κ → Except ε β → γ → γ} {J : γ → σ → Prop}
    (hstep : ∀ c g s, J g s → wp (exec c) (fun b t => J (note s c (.ok b) g) t)
      (fun e t => J (note s c (.error e) g) t) False s) :
    ∀ (cs : List κ) {g : γ} {s : σ}, J g s → ∃ q, runNoting exec note g s cs = some q ∧ J q.1 q.2
  | [], g, s, hJ => ⟨(g, s), rfl, hJ⟩
  | c :: cs, g, s, hJ => by
    obtain ⟨hok, herr, hpan⟩ := wp_iff_reply.mp (hstep c g s hJ)
    rcases hr : reply (exec c) s with _ | ⟨r, t⟩
    · exact (hpan hr).elim
    · have ht : J (note s c r g) t := by
        cases r with
        | ok b => exact hok b t hr
        | error e => exact herr e t hr
      obtain ⟨q, hq, hJq⟩ := runNoting_total hstep cs ht
      refine ⟨q, ?_, hJq⟩
      simp only [runNoting, hr, bind_eq_bind, bind_some]
      exact hq

/-- If no call panics and every call keeps `I`, every run reaches its end. -/
theorem run_total {I : σ → Prop}
    (hstep : ∀ c s, I s → wp (exec c) (fun _ t => I t) (fun _ t => I t) False s) :
    ∀ (cs : List κ) {s : σ}, I s → ∃ q, run exec s cs = some q ∧ I q.2
  | [], s, hI => ⟨([], s), rfl, hI⟩
  | c :: cs, s, hI => by
    obtain ⟨hok, herr, hpan⟩ := wp_iff_reply.mp (hstep c s hI)
    rcases hr : reply (exec c) s with _ | ⟨r, t⟩
    · exact (hpan hr).elim
    · have ht : I t := by
        cases r with
        | ok b => exact hok b t hr
        | error e => exact herr e t hr
      obtain ⟨q, hq, hIq⟩ := run_total hstep cs ht
      exact ⟨((c, r) :: q.1, q.2), run_cons_eq_some.mpr ⟨r, t, q.1, q.2, hr, hq, rfl⟩, hIq⟩

end Command

end Termivar
