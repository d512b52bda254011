import Tpm2.ByteCodec.Codec

/-! Where decoders fail: a composite decoder reads its components one after another, and reports the
failure of one at an offset that may or may not count the bytes before it. -/

namespace ByteCodec

/-- Errors that carry an offset into the input, which can be moved up to the largest one. -/
class Positioned (ε : Type) where
  offset : ε → Nat
  rebase : Nat → ε → ε
  largest : Nat
  offset_rebase : ∀ delta e, offset (rebase delta e) = min (offset e + delta) largest

/-- A step from a composite to one of its components: where the component starts, and whether the
composite moves the component's errors there. -/
structure Descent where
  start : Nat
  rebases : Bool

/-- The offset of a composite's error never misses where this component starts. -/
def Descent.Kept (step : Descent) : Prop := step.rebases = true ∨ step.start = 0

instance (step : Descent) : Decidable step.Kept := inferInstanceAs (Decidable (_ ∨ _))

/-- What a composite adds to the offset of the component's error. -/
def Descent.added (step : Descent) : Nat := if step.rebases then step.start else 0

/-- Where the component at the end of a path starts, in the input of the outermost composite. -/
def position (path : List Descent) : Nat := (path.map Descent.start).sum

/-- What the composites of a path add to the offset of an error. -/
def added (path : List Descent) : Nat := (path.map Descent.added).sum

theorem Descent.added_le (step : Descent) : step.added ≤ step.start := by
  unfold Descent.added
  split
  · exact Nat.le_refl _
  · exact Nat.zero_le _

theorem Descent.added_eq_start {step : Descent} : step.added = step.start ↔ step.Kept := by
  unfold Descent.added Descent.Kept
  cases step.rebases with
  | true => simp
  | false => simpa using eq_comm

@[simp] theorem added_nil : added [] = 0 := rfl

@[simp] theorem added_rebased (start : Nat) (path : List Descent) :
    added (⟨start, true⟩ :: path) = start + added path := rfl

@[simp] theorem added_passed (start : Nat) (path : List Descent) :
    added (⟨start, false⟩ :: path) = added path := Nat.zero_add _

theorem added_le_position (path : List Descent) : added path ≤ position path := by
  induction path with
  | nil => exact Nat.le_refl 0
  | cons step path ih =>
      simp only [added, position, List.map_cons, List.sum_cons] at ih ⊢
      exact Nat.add_le_add step.added_le ih

/-- A path adds its whole position exactly when every step of it does. -/
theorem added_eq_position {path : List Descent} :
    added path = position path ↔ ∀ step ∈ path, step.Kept := by
  induction path with
  | nil => simp [added, position]
  | cons step path ih =>
      have first := step.added_le
      have others := added_le_position path
      rw [List.forall_mem_cons, ← ih, ← Descent.added_eq_start]
      simp only [added, position, List.map_cons, List.sum_cons] at others ⊢
      omega

variable {ε α β γ : Type}

/-- Which components of an input fail, on which path, and with which error. -/
abbrev Failures (ε : Type) := Bytes → List Descent → ε → Prop

/-- Which of the components that are still to be read fail: at which position, on which path inside
the component, and with which error. -/
abbrev PartFailures (ε : Type) := Bytes → Nat → List Descent → ε → Prop

namespace PartFailures

def none : PartFailures ε := fun _ _ _ _ => False

/-- One component, and nothing after it. -/
def sole (fails : Failures ε) : PartFailures ε := fun b start path e => start = 0 ∧ fails b path e

/-- A component, and after it the ones that depend on its value. -/
def next (read : Bytes → Except ε (α × Bytes)) (fails : Failures ε) (rest : α → PartFailures ε) :
    PartFailures ε := fun b start path e =>
  start = 0 ∧ fails b path e ∨
    ∃ v m later, read b = .ok (v, m) ∧ rest v m later path e ∧
      start = b.length - m.length + later

end PartFailures

namespace Failures

/-- The failures of a decoder without components. -/
def leaf (read : Bytes → Except ε (α × Bytes)) : Failures ε := fun b path e =>
  path = [] ∧ read b = .error e

/-- The failures of a composite: its own, and those of its components. -/
def composite (read : Bytes → Except ε (α × Bytes)) (rebases : Bool) (parts : PartFailures ε) :
    Failures ε := fun b path e =>
  path = [] ∧ read b = .error e ∨
    ∃ start inner, path = ⟨start, rebases⟩ :: inner ∧ parts b start inner e

end Failures

section
variable [Positioned ε]

open Positioned

/-- A failure at offset `n`. -/
def ReportsAt (x : Except ε α) (n : Nat) : Prop := ∃ e, x = .error e ∧ offset e = n

theorem ReportsAt.bind {x : Except ε α} {n : Nat} (reports : ReportsAt x n)
    (f : α → Except ε β) : ReportsAt (x >>= f) n := by
  obtain ⟨e, rfl, at_n⟩ := reports
  exact ⟨e, rfl, at_n⟩

/-- Moving an error within range moves its offset. -/
theorem ReportsAt.rebase {x : Except ε α} {n : Nat} (reports : ReportsAt x n) (delta : Nat)
    (inRange : n + delta ≤ largest ε) : ReportsAt (x.mapError (rebase delta)) (delta + n) := by
  obtain ⟨e, rfl, rfl⟩ := reports
  refine ⟨_, rfl, ?_⟩
  rw [offset_rebase, Nat.min_eq_left inRange, Nat.add_comm]

/-- A failure at offset `n` is a failure at offset `m` exactly when the offsets are equal. -/
theorem ReportsAt.iff_eq {x : Except ε α} {n : Nat} (reports : ReportsAt x n) {m : Nat} :
    ReportsAt x m ↔ n = m := by
  obtain ⟨e, failed, rfl⟩ := reports
  constructor
  · rintro ⟨e', failed', rfl⟩
    cases failed.symm.trans failed'
    rfl
  · rintro rfl
    exact ⟨e, failed, rfl⟩

/-- The errors that `x` returns have offsets up to `n`. -/
def Within (x : Except ε α) (n : Nat) : Prop := ∀ e, x = .error e → offset e ≤ n

theorem ReportsAt.within {x : Except ε α} {n n' : Nat} (reports : ReportsAt x n)
    (within : Within x n') : n ≤ n' := by
  obtain ⟨e, failed, rfl⟩ := reports
  exact within e failed

theorem Within.mono {x : Except ε α} {n n' : Nat} (within : Within x n) (le : n ≤ n') :
    Within x n' :=
  fun e failed => Nat.le_trans (within e failed) le

theorem Within.ok (v : α) (n : Nat) : Within (.ok v : Except ε α) n := nofun

theorem Within.error {e : ε} {n : Nat} (le : offset e ≤ n) : Within (.error e : Except ε α) n := by
  rintro _ ⟨⟩
  exact le

theorem Within.bind {x : Except ε α} {f : α → Except ε β} {n : Nat} (within : Within x n)
    (rest : ∀ v, x = .ok v → Within (f v) n) : Within (x >>= f) n := by
  cases x with
  | error e => exact .error (within e rfl)
  | ok v => exact rest v rfl

theorem Within.rebase {x : Except ε α} {n : Nat} (within : Within x n) (delta : Nat) :
    Within (x.mapError (rebase delta)) (delta + n) := by
  cases x with
  | ok v => exact .ok v _
  | error e =>
      have le := within e rfl
      apply Within.error
      rw [offset_rebase]
      omega

/-- How a decoder fails: no error points further than `furthest` into the input, and the failure of
a component is reported at its offset in the component and what the composites on the way add. -/
structure Located (read : Bytes → Except ε (α × Bytes)) (furthest : Nat) where
  FailsAt : Failures ε
  within : ∀ b, Within (read b) furthest
  reports : furthest ≤ largest ε → ∀ {b path e}, FailsAt b path e →
    ReportsAt (read b) (added path + offset e)

/-- The same of the rest of a decoder that passes the errors of its components on. -/
structure LocatedParts (read : Bytes → Except ε (α × Bytes)) (furthest : Nat) where
  FailsAt : PartFailures ε
  within : ∀ b, Within (read b) furthest
  reports : furthest ≤ largest ε → ∀ {b start path e}, FailsAt b start path e →
    ReportsAt (read b) (added path + offset e)

/-- The same of the rest of a decoder whose input began `origin` bytes before the end of this one,
and that moves the errors of its components to where they start in that input. -/
structure LocatedFields (read : Nat → Bytes → Except ε (α × Bytes)) (furthest : Nat) where
  FailsAt : PartFailures ε
  within : ∀ origin b, Within (read origin b) (origin - b.length + furthest)
  reports : ∀ origin b, b.length ≤ origin → origin - b.length + furthest ≤ largest ε →
    ∀ {start path e}, FailsAt b start path e →
      ReportsAt (read origin b) (origin - b.length + start + added path + offset e)

/-- What a decoder accepts is a prefix of the input, of `width` bytes at most. -/
def Consumes (read : Bytes → Except ε (α × Bytes)) (width : Nat) : Prop :=
  ∀ {b v m}, read b = .ok (v, m) → ∃ p, b = p ++ m ∧ p.length ≤ width

variable {read : Bytes → Except ε (α × Bytes)} {n n' width : Nat}

namespace Located

/-- A decoder without components. -/
def leaf (within : ∀ b, Within (read b) n) : Located read n where
  FailsAt := .leaf read
  within := within
  reports := by
    rintro - b _ e ⟨rfl, failed⟩
    exact ⟨e, failed, by simp⟩

def mono (located : Located read n) (le : n ≤ n') : Located read n' where
  FailsAt := located.FailsAt
  within b := (located.within b).mono le
  reports inRange := located.reports (Nat.le_trans le inRange)

/-- The same decoder under another name for its values. -/
def map (located : Located read n) (f : α → β) :
    Located (fun b => read b >>= fun x => .ok (f x.1, x.2)) n where
  FailsAt := located.FailsAt
  within b := (located.within b).bind fun _ _ => .ok _ n
  reports inRange := fun failed => (located.reports inRange failed).bind _

/-- A condition chooses the decoder. -/
def branch {read' : Bytes → Except ε (α × Bytes)} {condition : Prop} [Decidable condition]
    (yes : Located read n) (no : Located read' n) :
    Located (fun b => if condition then read b else read' b) n where
  FailsAt b path e := condition ∧ yes.FailsAt b path e ∨ ¬ condition ∧ no.FailsAt b path e
  within b := by
    split
    · exact yes.within b
    · exact no.within b
  reports inRange := by
    rintro b path e (⟨holds, failed⟩ | ⟨fails, failed⟩)
    · rw [if_pos holds]
      exact yes.reports inRange failed
    · rw [if_neg fails]
      exact no.reports inRange failed

/-- A tag, of `width` bytes at most, and the payload that it selects, whose errors are moved behind
the tag. -/
def tagged {payload : α → Bytes → Except ε (β × Bytes)} (tag : Located read n)
    (consumes : Consumes read width) (selected : ∀ v, Located (payload v) n')
    (ofPair : α → β → γ) :
    Located (fun b => read b >>= fun x =>
      (payload x.1 x.2).mapError (rebase (b.length - x.2.length)) >>= fun y =>
        .ok (ofPair x.1 y.1, y.2)) (max n (width + n')) where
  FailsAt := .composite (fun b => read b >>= fun x =>
      (payload x.1 x.2).mapError (rebase (b.length - x.2.length)) >>= fun y =>
        .ok (ofPair x.1 y.1, y.2))
    true (.next read tag.FailsAt fun v => .sole (selected v).FailsAt)
  within b := by
    refine ((tag.within b).mono (Nat.le_max_left ..)).bind fun x ok => ?_
    obtain ⟨p, rfl, short⟩ := consumes ok
    rw [List.length_append]
    exact ((((selected x.1).within x.2).rebase _).mono (by omega)).bind fun _ _ => .ok _ _
  reports inRange := by
    rintro b _ e (⟨rfl, failed⟩ | ⟨start, inner, rfl, ⟨rfl, failed⟩ |
      ⟨v, m, _, ok, ⟨rfl, failed⟩, rfl⟩⟩)
    · exact ⟨e, failed, by simp⟩
    · have reported := (tag.reports (by omega) failed).bind fun x =>
        (payload x.1 x.2).mapError (rebase (b.length - x.2.length)) >>= fun y =>
          .ok (ofPair x.1 y.1, y.2)
      simpa using reported
    · have reported := (selected v).reports (by omega) failed
      have near := reported.within ((selected v).within m)
      obtain ⟨p, rfl, short⟩ := consumes ok
      have moved := reported.rebase ((p ++ m).length - m.length) (by
        rw [List.length_append]
        omega)
      rw [ok, added_rebased, Nat.add_zero, Nat.add_assoc]
      exact moved.bind fun y => .ok (ofPair v y.1, y.2)

end Located

namespace LocatedParts

/-- Nothing is left to read. -/
def done (v : α) : LocatedParts (fun b => (.ok (v, b) : Except ε (α × Bytes))) 0 where
  FailsAt := .none
  within b := .ok (v, b) 0
  reports _ := nofun

/-- The decoder refuses the input itself. -/
def refuse (e : ε) (le : offset e ≤ n) :
    LocatedParts (fun _ => (.error e : Except ε (α × Bytes))) n where
  FailsAt := .none
  within _ := .error le
  reports _ := nofun

def mono (parts : LocatedParts read n) (le : n ≤ n') : LocatedParts read n' where
  FailsAt := parts.FailsAt
  within b := (parts.within b).mono le
  reports inRange := parts.reports (Nat.le_trans le inRange)

def congr {read' : Bytes → Except ε (α × Bytes)} (parts : LocatedParts read n)
    (same : ∀ b, read' b = read b) : LocatedParts read' n where
  FailsAt := parts.FailsAt
  within b := by
    rw [same]
    exact parts.within b
  reports inRange := by
    intro b start path e failed
    rw [same]
    exact parts.reports inRange failed

/-- A component is read, and then the rest. -/
def next {rest : α → Bytes → Except ε (β × Bytes)} (first : Located read n)
    (others : ∀ v, LocatedParts (rest v) n') :
    LocatedParts (fun b => do
      let (v, m) ← read b
      rest v m) (max n n') where
  FailsAt := .next read first.FailsAt fun v => (others v).FailsAt
  within b := ((first.within b).mono (Nat.le_max_left ..)).bind fun x _ =>
    ((others x.1).within x.2).mono (Nat.le_max_right ..)
  reports inRange := by
    rintro b start path e (⟨-, failed⟩ | ⟨v, m, later, ok, failed, -⟩)
    · exact (first.reports (by omega) failed).bind _
    · rw [ok]
      exact (others v).reports (by omega) failed

/-- A condition chooses what is read. -/
def branch {read' : Bytes → Except ε (α × Bytes)} (condition : Prop) [Decidable condition]
    (yes : LocatedParts read n) (no : LocatedParts read' n) :
    LocatedParts (fun b => if condition then read b else read' b) n where
  FailsAt b start path e :=
    condition ∧ yes.FailsAt b start path e ∨ ¬ condition ∧ no.FailsAt b start path e
  within b := by
    split
    · exact yes.within b
    · exact no.within b
  reports inRange := by
    rintro b start path e (⟨holds, failed⟩ | ⟨fails, failed⟩)
    · rw [if_pos holds]
      exact yes.reports inRange failed
    · rw [if_neg fails]
      exact no.reports inRange failed

/-- A result that the input has no part in is needed to go on. -/
def given {x : Except ε γ} {rest : γ → Bytes → Except ε (β × Bytes)} (within : Within x n)
    (others : ∀ v, LocatedParts (rest v) n) :
    LocatedParts (fun b => x >>= fun v => rest v b) n where
  FailsAt b start path e := ∃ v, x = .ok v ∧ (others v).FailsAt b start path e
  within b := within.bind fun v _ => (others v).within b
  reports inRange := by
    rintro b start path e ⟨v, rfl, failed⟩
    exact (others v).reports inRange failed

/-- A composite that passes the errors of its components on. -/
def composite (parts : LocatedParts read n) : Located read n where
  FailsAt := .composite read false parts.FailsAt
  within := parts.within
  reports inRange := by
    rintro b _ e (⟨rfl, failed⟩ | ⟨start, inner, rfl, failed⟩)
    · exact ⟨e, failed, by simp⟩
    · rw [added_passed]
      exact parts.reports inRange failed

end LocatedParts

namespace LocatedFields

def nil : LocatedFields (fun _ b => (.ok ((), b) : Except ε (Unit × Bytes))) 0 where
  FailsAt := .none
  within _ b := .ok ((), b) _
  reports _ _ _ _ := nofun

/-- A component, of `width` bytes at most, and the ones behind it. -/
def cons {rest : Nat → Bytes → Except ε (β × Bytes)} (first : Located read n)
    (consumes : Consumes read width) (others : LocatedFields rest n') :
    LocatedFields (fun origin b => (read b).mapError (rebase (origin - b.length)) >>= fun x =>
      rest origin x.2 >>= fun y => .ok ((x.1, y.1), y.2)) (max n (width + n')) where
  FailsAt := .next read first.FailsAt fun _ => others.FailsAt
  within origin b := by
    apply Within.bind
    · exact ((first.within b).rebase _).mono (by omega)
    · rintro ⟨v, m⟩ ok
      obtain ⟨p, rfl, short⟩ := consumes (mapError_eq_ok.mp ok)
      refine ((others.within origin m).mono ?_).bind fun y _ => .ok _ _
      rw [List.length_append]
      omega
  reports origin b le inRange := by
    rintro start path e (⟨rfl, failed⟩ | ⟨v, m, later, ok, failed, rfl⟩)
    · have reported := first.reports (by omega) failed
      have near := reported.within (first.within b)
      have moved := reported.rebase (origin - b.length) (by omega)
      rw [Nat.add_zero, Nat.add_assoc]
      exact moved.bind _
    · obtain ⟨p, rfl, short⟩ := consumes ok
      rw [List.length_append] at le inRange ⊢
      have reported := others.reports origin m (by omega) (by omega) failed
      rw [ok]
      obtain ⟨e', failed', at_inner⟩ := reported.bind fun y => .ok ((v, y.1), y.2)
      exact ⟨e', failed', by omega⟩

/-- A composite that moves the errors of its components to where they start. -/
def composite {rest : Nat → Bytes → Except ε (β × Bytes)} (fields : LocatedFields rest n)
    (ofFields : β → γ) :
    Located (fun b => rest b.length b >>= fun x => .ok (ofFields x.1, x.2)) n where
  FailsAt := .composite _ true fields.FailsAt
  within b := ((fields.within b.length b).mono (by omega)).bind fun x _ => .ok _ _
  reports inRange := by
    rintro b _ e (⟨rfl, failed⟩ | ⟨start, inner, rfl, failed⟩)
    · exact ⟨e, failed, by simp⟩
    · have reported := fields.reports b.length b (Nat.le_refl _) (by omega) failed
      rw [Nat.sub_self, Nat.zero_add] at reported
      rw [added_rebased]
      exact reported.bind fun x => .ok (ofFields x.1, x.2)

end LocatedFields

end
end ByteCodec
