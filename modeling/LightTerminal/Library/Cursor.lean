import Mathlib.Data.List.Basic

/-! # Loops over an argument list with a cursor

`while i < args.len()` with a body that reads the argument at `i`, and perhaps what follows it, and
moves `i` on by the width of what it read. Widths are at least one; a cursor that leaves the list ends
the loop. -/

namespace LightTerminal.Library.Cursor

variable {α σ ρ : Type*}

/-- What one turn of a loop does: go on with a state, past `width` arguments, or return. -/
inductive Turn (σ ρ : Type*)
  | next (width : ℕ) (state : σ)
  | done (result : ρ)
deriving DecidableEq

/-- The loop from a cursor `skip` arguments into the list. -/
def walk (turn : α → List α → σ → Turn σ ρ) (finish : σ → ρ) : ℕ → List α → σ → ρ
  | _, [], st => finish st
  | skip + 1, _ :: rest, st => walk turn finish skip rest st
  | 0, arg :: rest, st =>
    match turn arg rest st with
    | .next width st' => walk turn finish (width - 1) rest st'
    | .done result => result

/-- A turn that moves the cursor by at most `most` arguments. -/
def Turn.clip (most : ℕ) : Turn σ ρ → Turn σ ρ
  | .next width st => .next (min width most) st
  | .done result => .done result

/-- A turn that goes on past `width` arguments, or returns an error. -/
def Turn.ofExcept {ε τ : Type*} (width : ℕ) : Except ε σ → Turn σ (Except ε τ)
  | .error err => .done (.error err)
  | .ok st => .next width st

theorem Turn.clip_ofExcept {ε τ : Type*} (width most : ℕ) (result : Except ε σ) :
    (Turn.ofExcept width result : Turn σ (Except ε τ)).clip most =
      Turn.ofExcept (min width most) result := by
  rcases result with err | st <;> rfl

variable {turn : α → List α → σ → Turn σ ρ} {finish : σ → ρ}

@[simp] theorem walk_nil (skip : ℕ) (st : σ) : walk turn finish skip [] st = finish st := by
  cases skip <;> rfl

@[simp] theorem walk_skip (skip : ℕ) (arg : α) (rest : List α) (st : σ) :
    walk turn finish (skip + 1) (arg :: rest) st = walk turn finish skip rest st := rfl

theorem walk_next {arg : α} {rest : List α} {st st' : σ} {width : ℕ}
    (h : turn arg rest st = .next width st') :
    walk turn finish 0 (arg :: rest) st = walk turn finish (width - 1) rest st' := by
  show (match turn arg rest st with
    | .next width st' => walk turn finish (width - 1) rest st'
    | .done result => result) = _
  rw [h]

theorem walk_done {arg : α} {rest : List α} {st : σ} {result : ρ}
    (h : turn arg rest st = .done result) : walk turn finish 0 (arg :: rest) st = result := by
  show (match turn arg rest st with
    | .next width st' => walk turn finish (width - 1) rest st'
    | .done result => result) = _
  rw [h]

theorem walk_over {skip : ℕ} {args : List α} (h : args.length ≤ skip) (st : σ) :
    walk turn finish skip args st = finish st := by
  induction args generalizing skip with
  | nil => exact walk_nil skip st
  | cons arg rest ih =>
    rcases skip with - | skip
    · exact absurd h (by simp)
    · rw [walk_skip]
      exact ih (by rw [List.length_cons] at h; omega)

/-- How far a turn moves the cursor beyond the list makes no difference. -/
theorem walk_clip_next {arg : α} {rest : List α} {st st' : σ} {width : ℕ}
    (h : (turn arg rest st).clip (rest.length + 1) = .next width st') :
    walk turn finish 0 (arg :: rest) st = walk turn finish (width - 1) rest st' := by
  rcases hturn : turn arg rest st with ⟨width', next⟩ | result
  · rw [hturn, Turn.clip] at h
    obtain ⟨hwidth, hst⟩ := Turn.next.inj h
    rw [walk_next hturn, hst]
    by_cases hle : width' ≤ rest.length + 1
    · have he : width' = width := by omega
      rw [he]
    · rw [walk_over (by omega), walk_over (by omega)]
  · rw [hturn, Turn.clip] at h
    exact absurd h (by simp)

theorem walk_clip_done {arg : α} {rest : List α} {st : σ} {result : ρ} {most : ℕ}
    (h : (turn arg rest st).clip most = .done result) :
    walk turn finish 0 (arg :: rest) st = result := by
  rcases hturn : turn arg rest st with ⟨width, next⟩ | result'
  · rw [hturn, Turn.clip] at h
    exact absurd h (by simp)
  · rw [hturn, Turn.clip] at h
    rw [walk_done hturn]
    exact Turn.done.inj h

end LightTerminal.Library.Cursor
