import Tpm2.Algorithm.Checked
import Tpm2.PolicyLanguage.Display
import Tpm2.Text.Glob

/-! Handle patterns: what is typed for a handle is compiled to a mask and a value, and selects the
handles whose digits match. -/

namespace Tpm2

open Text Checked

/-- Why a text is no handle. -/
inductive HandleError
  | handleHasTooManyAsterisks
  | handleTooShort
  | handleTooLong
  | invalidHandleCharacter (c : Char)
  deriving DecidableEq

/-- A handle, or a pattern of handles. -/
structure Handle where
  mask : UInt32
  value : UInt32
  deriving DecidableEq

namespace Handle

/-- Creates a new handle that represents a single, specific handle value. -/
def new (value : UInt32) : Handle := ⟨0xFFFFFFFF, value⟩

/-- Checks if a given handle value matches the handle's pattern. -/
def «matches» (self : Handle) (handle : UInt32) : Bool := handle &&& self.mask == self.value

/-- The `Display` text. -/
def display (self : Handle) : List Char :=
  if self.mask = 0 then
    ['*']
  else
    (List.range 8).reverse.map fun i =>
      let shift := UInt32.ofNat (i * 4)
      let nibbleMask := (self.mask >>> shift) &&& 0xf
      if nibbleMask = 0xf then
        let val := (self.value >>> shift) &&& 0xf
        Nat.digitChar val.toNat
      else
        '?'

/-- `lhs - rhs`, which panics where it is negative. -/
def checkedSub? (lhs rhs : Nat) : Option Nat := if rhs ≤ lhs then some (lhs - rhs) else none

/-- `(nibble_idx * 4) as u32` as the amount of a shift, which panics where it is not below 32. -/
def checkedShift? (nibbleIdx : Int) : Option Nat :=
  if 0 ≤ nibbleIdx * 4 ∧ nibbleIdx * 4 < 32 then some (nibbleIdx * 4).toNat else none

/-- The loop over the characters of a pattern. -/
def compile (padding : Nat) : List Char → UInt32 → UInt32 → Int → Checked HandleError Handle
  | [], mask, value, _ => return ⟨mask, value⟩
  | c :: s, mask, value, nibbleIdx =>
      if c = '*' then
        compile padding s mask value (nibbleIdx - padding)
      else do
        let shift ← orPanic (checkedShift? nibbleIdx)
        match toDigit 16 c with
        | some v =>
            compile padding s (mask ||| 0xf <<< UInt32.ofNat shift)
              (value ||| UInt32.ofNat v <<< UInt32.ofNat shift) (nibbleIdx - 1)
        | none =>
            if c = '?' then
              compile padding s mask value (nibbleIdx - 1)
            else
              throw (.invalidHandleCharacter c)

/-- The number of stars in a pattern. -/
def stars (s : List Char) : Nat := (s.filter (· = '*')).length

/-- The checks on the length of a pattern. -/
def checkLen (asteriskCount explicitLen : Nat) : Except HandleError Unit :=
  if asteriskCount = 0 then
    if explicitLen < 8 then
      .error .handleTooShort
    else if explicitLen > 8 then
      .error .handleTooLong
    else
      .ok ()
  else if explicitLen > 8 then
    .error .handleTooLong
  else
    .ok ()

/-- `Handle::from_str`; the length of a text is the one of its UTF-8 encoding. -/
def fromStr (valueStr : List Char) : Checked HandleError Handle :=
  if valueStr = ['*'] then
    return ⟨0, 0⟩
  else
    let asteriskCount := stars valueStr
    if asteriskCount > 1 then
      throw .handleHasTooManyAsterisks
    else do
      let explicitLen ← orPanic (checkedSub? (valueStr.map Char.utf8Size).sum asteriskCount)
      result (checkLen asteriskCount explicitLen)
      let padding ← orPanic (checkedSub? 8 explicitLen)
      compile padding valueStr 0 0 7

/-- The cells that one character of a pattern stands for. -/
def cellOf (padding : Nat) (c : Char) : Except HandleError (List Cell) :=
  if c = '*' then
    .ok (List.replicate padding none)
  else
    match toDigit 16 c with
    | some v => .ok [some v]
    | none => if c = '?' then .ok [none] else .error (.invalidHandleCharacter c)

/-- The cells of a pattern whose star stands for `padding` of them. -/
def cellsOf (padding : Nat) : List Char → Except HandleError (List Cell)
  | [] => .ok []
  | c :: s => do
      let cells ← cellOf padding c
      let rest ← cellsOf padding s
      return cells ++ rest

/-- The digits that a pattern asks for. -/
def needed (padding : Nat) (s : List Char) : Nat :=
  (s.map fun c => if c = '*' then padding else 1).sum

/-- The handle has these cells in its high digits, and nothing behind them. -/
def Placed (handle : Handle) (cells : List Cell) : Prop :=
  handle.mask.toNat = Text.mask cells <<< ((8 - cells.length) * 4) ∧
    handle.value.toNat = Text.value cells <<< ((8 - cells.length) * 4)

theorem toDigit_lt {radix v : Nat} {c : Char} (digit : toDigit radix c = some v) : v < radix := by
  rw [toDigit, Option.filter_eq_some_iff] at digit
  simpa using digit.2

/-- Setting a digit of a word that has nothing there. -/
theorem toNat_or_shiftLeft {w : UInt32} {a d k : Nat} (place : w.toNat = a <<< ((k + 1) * 4))
    (small : d < 16) (low : k < 8) :
    (w ||| UInt32.ofNat d <<< UInt32.ofNat (k * 4)).toNat = (a * 16 + d) <<< (k * 4) := by
  have amount : (UInt32.ofNat (k * 4)).toNat = k * 4 :=
    UInt32.toNat_ofNat_of_lt' (by rw [UInt32.size]; omega)
  have digit : (UInt32.ofNat d).toNat = d :=
    UInt32.toNat_ofNat_of_lt' (by rw [UInt32.size]; omega)
  have fits : d <<< (k * 4) < 2 ^ 32 := by
    have le : 2 ^ (k * 4) ≤ 2 ^ 28 := Nat.pow_le_pow_right (by decide) (by omega)
    rw [Nat.shiftLeft_eq]
    calc d * 2 ^ (k * 4) ≤ 15 * 2 ^ 28 := Nat.mul_le_mul (by omega) le
      _ < 2 ^ 32 := by decide
  rw [UInt32.toNat_or, UInt32.toNat_shiftLeft, amount, digit, place,
    Nat.mod_eq_of_lt (show k * 4 < 32 by omega), Nat.mod_eq_of_lt fits,
    shiftLeft_or_nibble small]

theorem Placed.known {handle : Handle} {cells : List Cell} (placed : handle.Placed cells)
    (room : cells.length < 8) {v : Nat} (small : v < 16) :
    Placed ⟨handle.mask ||| 0xf <<< UInt32.ofNat ((7 - cells.length) * 4),
      handle.value ||| UInt32.ofNat v <<< UInt32.ofNat ((7 - cells.length) * 4)⟩
      (cells ++ [some v]) := by
  have place : 8 - cells.length = 7 - cells.length + 1 := by omega
  have place' : 8 - (cells.length + 1) = 7 - cells.length := by omega
  have low : 7 - cells.length < 8 := by omega
  obtain ⟨maskPlaced, valuePlaced⟩ := placed
  rw [place] at maskPlaced valuePlaced
  refine ⟨?_, ?_⟩
  · rw [List.length_append, List.length_singleton, place', Text.mask, List.map_append,
      List.map_singleton, ofNibbles_concat]
    exact toNat_or_shiftLeft (d := 15) maskPlaced (by decide) low
  · rw [List.length_append, List.length_singleton, place', Text.value, List.map_append,
      List.map_singleton, ofNibbles_concat]
    exact toNat_or_shiftLeft valuePlaced small low

theorem Placed.unknown {handle : Handle} {cells : List Cell} (placed : handle.Placed cells)
    (room : cells.length < 8) : handle.Placed (cells ++ [none]) := by
  have place : 8 - cells.length = 7 - cells.length + 1 := by omega
  have place' : 8 - (cells.length + 1) = 7 - cells.length := by omega
  obtain ⟨maskPlaced, valuePlaced⟩ := placed
  rw [place, shiftLeft_gap] at maskPlaced valuePlaced
  refine ⟨?_, ?_⟩
  · rw [List.length_append, List.length_singleton, place', Text.mask, List.map_append,
      List.map_singleton, ofNibbles_concat]
    exact maskPlaced
  · rw [List.length_append, List.length_singleton, place', Text.value, List.map_append,
      List.map_singleton, ofNibbles_concat]
    exact valuePlaced

theorem Placed.gap {handle : Handle} {cells : List Cell} (placed : handle.Placed cells) (n : Nat)
    (room : cells.length + n ≤ 8) : handle.Placed (cells ++ List.replicate n none) := by
  induction n with
  | zero =>
      rw [List.replicate_zero, List.append_nil]
      exact placed
  | succ n ih =>
      have before := ih (by omega)
      rw [List.replicate_succ', ← List.append_assoc]
      refine before.unknown ?_
      rw [List.length_append, List.length_replicate]
      omega

theorem checkedShift?_of_lt {n : Nat} (room : n < 8) :
    checkedShift? (7 - (n : Int)) = some ((7 - n) * 4) := by
  have inRange : 0 ≤ (7 - (n : Int)) * 4 ∧ (7 - (n : Int)) * 4 < 32 := by omega
  rw [checkedShift?, if_pos inRange]
  congr 1
  omega

/-- What the loop returns on the characters behind some cells. -/
def compiled (padding : Nat) (cells : List Cell) (s : List Char)
    (result : Except HandleError Handle) : Prop :=
  (∀ e, cellsOf padding s = .error e → result = .error e) ∧
    ∀ more, cellsOf padding s = .ok more →
      ∃ handle, result = .ok handle ∧ handle.Placed (cells ++ more)

theorem cellsOf_cons_ok {padding : Nat} {c : Char} {s : List Char} {first : List Cell}
    (cell : cellOf padding c = .ok first) :
    cellsOf padding (c :: s) = (cellsOf padding s).map (first ++ ·) := by
  rw [cellsOf, cell]
  cases cellsOf padding s <;> rfl

theorem compiled.cons {padding : Nat} {cells first : List Cell} {c : Char} {s : List Char}
    {result : Except HandleError Handle} (cell : cellOf padding c = .ok first)
    (rest : compiled padding (cells ++ first) s result) :
    compiled padding cells (c :: s) result := by
  rw [compiled, cellsOf_cons_ok cell]
  constructor
  · intro e failed
    cases others : cellsOf padding s with
    | error e' =>
        rw [others] at failed
        cases failed
        exact rest.1 e others
    | ok more =>
        rw [others] at failed
        cases failed
  · intro more ok
    cases others : cellsOf padding s with
    | error e =>
        rw [others] at ok
        cases ok
    | ok more' =>
        rw [others] at ok
        cases ok
        rw [← List.append_assoc]
        exact rest.2 more' others

/-- The loop stays within the eight digits, as long as the pattern does not ask for more. -/
theorem compile_returns {padding : Nat} (s : List Char) {mask value : UInt32} {cells : List Cell}
    (placed : Placed ⟨mask, value⟩ cells) (room : cells.length + needed padding s ≤ 8) :
    ∃ result, Returns (compile padding s mask value (7 - cells.length)) result ∧
      compiled padding cells s result := by
  induction s generalizing mask value cells with
  | nil =>
      refine ⟨.ok ⟨mask, value⟩, rfl, ?_, ?_⟩
      · intro e failed
        cases failed
      · intro more ok
        cases ok
        rw [List.append_nil]
        exact ⟨_, rfl, placed⟩
  | cons c s ih =>
      rw [needed, List.map_cons, List.sum_cons] at room
      change cells.length + (_ + needed padding s) ≤ 8 at room
      rw [compile]
      by_cases star : c = '*'
      · rw [if_pos star] at room ⊢
        have behind := placed.gap padding (by omega)
        have length : (cells ++ List.replicate padding none).length = cells.length + padding := by
          rw [List.length_append, List.length_replicate]
        obtain ⟨result, returns, made⟩ := ih behind (by omega)
        rw [length, show (7 : Int) - ((cells.length + padding : Nat) : Int)
          = 7 - cells.length - padding by omega] at returns
        refine ⟨result, returns, made.cons ?_⟩
        rw [cellOf, if_pos star]
      · rw [if_neg star] at room ⊢
        have inside : cells.length < 8 := by omega
        have next (first : Cell) :
            7 - (cells.length : Int) - 1 = 7 - ((cells ++ [first]).length : Int) := by
          rw [List.length_append, List.length_singleton]
          omega
        have left (first : Cell) : (cells ++ [first]).length + needed padding s ≤ 8 := by
          rw [List.length_append, List.length_singleton]
          omega
        rw [checkedShift?_of_lt inside]
        cases digit : toDigit 16 c with
        | some v =>
            have cell : cellOf padding c = .ok [some v] := by rw [cellOf, if_neg star, digit]
            obtain ⟨result, returns, made⟩ :=
              ih (placed.known inside (toDigit_lt digit)) (left (some v))
            rw [← next] at returns
            exact ⟨result, returns, made.cons cell⟩
        | none =>
            by_cases any : c = '?'
            · have cell : cellOf padding c = .ok [none] := by
                rw [cellOf, if_neg star, digit]
                exact if_pos any
              obtain ⟨result, returns, made⟩ := ih (placed.unknown inside) (left none)
              rw [← next] at returns
              refine ⟨result, ?_, made.cons cell⟩
              exact .orPanic_bind rfl ((if_pos any).symm ▸ returns)
            · have cell : cellOf padding c = .error (.invalidHandleCharacter c) := by
                rw [cellOf, if_neg star, digit]
                exact if_neg any
              have all : cellsOf padding (c :: s) = .error (.invalidHandleCharacter c) := by
                rw [cellsOf, cell]
                rfl
              refine ⟨.error (.invalidHandleCharacter c), ?_, ?_, ?_⟩
              · exact .orPanic_bind rfl ((if_neg any).symm ▸ .throw _)
              · intro e failed
                rw [all] at failed
                cases failed
                rfl
              · intro more ok
                rw [all] at ok
                cases ok

/-- The bytes of a pattern that are not those of a star. -/
def explicitLen (s : List Char) : Nat := (s.map Char.utf8Size).sum - stars s

/-- The lengths that a pattern may have. -/
def Sized (s : List Char) : Prop :=
  stars s = 0 ∧ explicitLen s = 8 ∨ stars s = 1 ∧ explicitLen s ≤ 8

theorem stars_cons (c : Char) (s : List Char) :
    stars (c :: s) = (if c = '*' then 1 else 0) + stars s := by
  unfold stars
  by_cases star : c = '*'
  · simp [star, Nat.add_comm]
  · simp [star]

theorem stars_le (s : List Char) : stars s ≤ (s.map Char.utf8Size).sum := by
  induction s with
  | nil => exact Nat.le_refl _
  | cons c s ih =>
      have size : 1 ≤ c.utf8Size := c.utf8Size_pos
      rw [stars_cons, List.map_cons, List.sum_cons]
      split <;> omega

/-- What is not a star asks for one digit at most, and has a byte for it. -/
theorem needed_le (padding : Nat) (s : List Char) :
    needed padding s ≤ explicitLen s + stars s * padding := by
  induction s with
  | nil => exact Nat.zero_le _
  | cons c s ih =>
      have size : 1 ≤ c.utf8Size := c.utf8Size_pos
      have le := stars_le s
      unfold needed explicitLen at ih ⊢
      rw [stars_cons, List.map_cons, List.sum_cons, List.map_cons, List.sum_cons, Nat.add_mul]
      by_cases star : c = '*'
      · rw [if_pos star, if_pos star, Nat.one_mul]
        omega
      · rw [if_neg star, if_neg star, Nat.zero_mul]
        omega

theorem Sized.needed_le {s : List Char} (sized : Sized s) :
    needed (8 - explicitLen s) s ≤ 8 := by
  have bound := Handle.needed_le (8 - explicitLen s) s
  rcases sized with ⟨no_star, exact⟩ | ⟨one, le⟩
  · rw [no_star] at bound
    omega
  · rw [one] at bound
    omega

theorem checkLen_eq_ok {s : List Char} (few : ¬ stars s > 1) :
    checkLen (stars s) (explicitLen s) = .ok () ↔ Sized s := by
  unfold checkLen Sized
  by_cases no_star : stars s = 0
  · rw [if_pos no_star]
    by_cases short : explicitLen s < 8
    · rw [if_pos short]
      constructor
      · intro failed
        cases failed
      · omega
    · rw [if_neg short]
      split
      · constructor
        · intro failed
          cases failed
        · omega
      · exact ⟨fun _ => by omega, fun _ => rfl⟩
  · rw [if_neg no_star]
    split
    · constructor
      · intro failed
        cases failed
      · omega
    · exact ⟨fun _ => by omega, fun _ => rfl⟩

/-- A text of a permitted length is compiled. -/
theorem fromStr_of_sized {s : List Char} (other : s ≠ ['*']) (sized : Sized s) :
    fromStr s = compile (8 - explicitLen s) s 0 0 7 := by
  have few : ¬ stars s > 1 := by
    unfold Sized at sized
    omega
  have within : explicitLen s ≤ 8 := by
    unfold Sized at sized
    omega
  have sub : checkedSub? (s.map Char.utf8Size).sum (stars s) = some (explicitLen s) :=
    if_pos (stars_le s)
  have sub' : checkedSub? 8 (explicitLen s) = some (8 - explicitLen s) := if_pos within
  unfold fromStr
  rw [if_neg other]
  dsimp only
  rw [if_neg few, sub]
  change (result (checkLen (stars s) (explicitLen s)) >>= fun _ =>
    orPanic (checkedSub? 8 (explicitLen s)) >>= fun padding => compile padding s 0 0 7) = _
  rw [(checkLen_eq_ok few).mpr sized, sub']
  rfl

/-- A text of another length is refused. -/
theorem fromStr_of_not_sized {s : List Char} (other : s ≠ ['*']) (sized : ¬ Sized s) :
    ∃ e, fromStr s = throw e := by
  unfold fromStr
  rw [if_neg other]
  dsimp only
  by_cases many : stars s > 1
  · exact ⟨_, if_pos many⟩
  · have sub : checkedSub? (s.map Char.utf8Size).sum (stars s) = some (explicitLen s) :=
      if_pos (stars_le s)
    rw [if_neg many, sub]
    cases checked : checkLen (stars s) (explicitLen s) with
    | ok u => exact (sized ((checkLen_eq_ok many).mp checked)).elim
    | error e =>
        refine ⟨e, ?_⟩
        change (result (checkLen (stars s) (explicitLen s)) >>= fun _ =>
          orPanic (checkedSub? 8 (explicitLen s)) >>= fun padding => compile padding s 0 0 7) = _
        rw [checked]
        rfl

theorem placed_nil : Placed ⟨0, 0⟩ [] := ⟨rfl, rfl⟩

/-- The single star stands for eight digits. -/
theorem placed_star : Placed ⟨0, 0⟩ (List.replicate 8 none) := ⟨rfl, rfl⟩

/-- No text whatsoever makes the parser panic. -/
theorem fromStr_returns (s : List Char) : ∃ result, Returns (fromStr s) result := by
  by_cases star : s = ['*']
  · refine ⟨.ok ⟨0, 0⟩, ?_⟩
    unfold fromStr
    rw [if_pos star]
    exact .pure _
  by_cases sized : Sized s
  · obtain ⟨result, returns, -⟩ :=
      compile_returns s placed_nil (Nat.le_trans (Nat.zero_add _).le sized.needed_le)
    rw [fromStr_of_sized star sized]
    exact ⟨result, returns⟩
  · obtain ⟨e, failed⟩ := fromStr_of_not_sized star sized
    rw [failed]
    exact ⟨.error e, .throw e⟩

/-- What a pattern has that stands for cells: characters of one byte, and no digit out of range. -/
theorem cellsOf_eq_ok {padding : Nat} {s : List Char} {cells : List Cell}
    (ok : cellsOf padding s = .ok cells) :
    cells.length = explicitLen s + stars s * padding ∧ ∀ v, some v ∈ cells → v < 16 := by
  induction s generalizing cells with
  | nil =>
      cases ok
      exact ⟨by simp [explicitLen, stars], fun v mem => by cases mem⟩
  | cons c s ih =>
      obtain ⟨first, cell, ok⟩ := ByteCodec.bind_eq_ok.mp ok
      obtain ⟨rest, others, ok⟩ := ByteCodec.bind_eq_ok.mp ok
      cases ok
      obtain ⟨length, known⟩ := ih others
      have le := stars_le s
      unfold explicitLen at length ⊢
      rw [List.length_append, length, stars_cons, List.map_cons, List.sum_cons, Nat.add_mul]
      unfold cellOf at cell
      by_cases star : c = '*'
      · have size : c.utf8Size = 1 := by
          rw [star]
          rfl
        rw [if_pos star] at cell
        cases cell
        rw [if_pos star, size, List.length_replicate]
        refine ⟨by omega, fun v mem => ?_⟩
        rcases List.mem_append.mp mem with gap | behind
        · cases List.eq_of_mem_replicate gap
        · exact known v behind
      · rw [if_neg star] at cell
        rw [if_neg star, Nat.zero_mul]
        cases digit : toDigit 16 c with
        | some d =>
            have size : c.utf8Size = 1 := by
              have known : (toDigit 16 c).isSome := by
                rw [digit]
                rfl
              exact (alphanum_of_toDigit known).2
            rw [digit] at cell
            cases cell
            rw [size, List.length_singleton]
            refine ⟨by omega, fun v mem => ?_⟩
            rcases List.mem_cons.mp mem with same | behind
            · cases same
              exact toDigit_lt digit
            · exact known v behind
        | none =>
            rw [digit] at cell
            change (if c = '?' then _ else _) = _ at cell
            split at cell
            next any =>
              cases cell
              have size : c.utf8Size = 1 := by
                rw [any]
                rfl
              rw [size, List.length_singleton]
              refine ⟨by omega, fun v mem => ?_⟩
              rcases List.mem_cons.mp mem with same | behind
              · cases same
              · exact known v behind
            next => cases cell

/-- An accepted pattern stands for eight cells, which the handle has. -/
theorem accepted {s : List Char} {handle : Handle} (ok : Returns (fromStr s) (.ok handle)) :
    ∃ padding cells, cellsOf padding s = .ok cells ∧ cells.length = 8 ∧ stars s ≤ 1 ∧
      handle.Placed cells := by
  by_cases star : s = ['*']
  · subst star
    cases ok
    exact ⟨8, List.replicate 8 none, rfl, rfl, Nat.le_refl _, placed_star⟩
  by_cases sized : Sized s
  · rw [fromStr_of_sized star sized] at ok
    obtain ⟨result, returns, fails, makes⟩ :=
      compile_returns s placed_nil (Nat.le_trans (Nat.zero_add _).le sized.needed_le)
    obtain rfl := ok.unique returns
    cases cells : cellsOf (8 - explicitLen s) s with
    | error e => cases fails e cells
    | ok cells' =>
        obtain ⟨handle', same, placed⟩ := makes cells' cells
        cases same
        have length := (cellsOf_eq_ok cells).1
        unfold Sized at sized
        refine ⟨_, cells', cells, ?_, by omega, placed⟩
        rcases sized with ⟨no_star, exact⟩ | ⟨one, le⟩
        · rw [no_star] at length
          omega
        · rw [one] at length
          omega
  · obtain ⟨e, failed⟩ := fromStr_of_not_sized star sized
    rw [failed] at ok
    cases ok

theorem not_mem_of_stars {s : List Char} (no_star : stars s = 0) : '*' ∉ s := by
  intro mem
  have kept : '*' ∈ s.filter (· = '*') := List.mem_filter.mpr ⟨mem, rfl⟩
  rw [List.length_eq_zero_iff.mp no_star] at kept
  cases kept

/-- A character other than a star stands for one cell. -/
theorem cellOf_eq_ok {padding : Nat} {c : Char} {first : List Cell} (star : c ≠ '*') :
    cellOf padding c = .ok first ↔
      (∃ v, toDigit 16 c = some v ∧ first = [some v]) ∨
        toDigit 16 c = none ∧ c = '?' ∧ first = [none] := by
  rw [cellOf, if_neg star]
  cases digit : toDigit 16 c with
  | some v => simp [eq_comm]
  | none => by_cases any : c = '?' <;> simp [any, eq_comm]

theorem length_cellsOf {padding : Nat} {s : List Char} {cells : List Cell} (no_star : '*' ∉ s)
    (ok : cellsOf padding s = .ok cells) : cells.length = s.length := by
  induction s generalizing cells with
  | nil =>
      cases ok
      rfl
  | cons c s ih =>
      obtain ⟨first, cell, ok⟩ := ByteCodec.bind_eq_ok.mp ok
      obtain ⟨rest, others, ok⟩ := ByteCodec.bind_eq_ok.mp ok
      cases ok
      have star : c ≠ '*' := fun same => no_star (same ▸ List.mem_cons_self)
      have behind := ih (fun mem => no_star (List.mem_cons_of_mem _ mem)) others
      rw [List.length_append, behind, List.length_cons]
      rcases (cellOf_eq_ok star).mp cell with ⟨v, -, rfl⟩ | ⟨-, -, rfl⟩
      all_goals exact Nat.add_comm ..

/-- A glob over digits compares the digits that are known. -/
theorem glob_iff {padding : Nat} {s : List Char} {cells : List Cell} {digits : List Nat}
    (few : stars s ≤ 1) (ok : cellsOf padding s = .ok cells)
    (lengths : digits.length = cells.length) (small : ∀ d ∈ digits, d < 16) :
    Glob s (digits.map Nat.digitChar) ↔ Agree cells digits := by
  induction s generalizing cells digits with
  | nil =>
      cases ok
      obtain rfl := List.length_eq_zero_iff.mp lengths
      exact ⟨fun _ => .nil, fun _ => rfl⟩
  | cons c s ih =>
      obtain ⟨first, cell, ok⟩ := ByteCodec.bind_eq_ok.mp ok
      obtain ⟨rest, others, ok⟩ := ByteCodec.bind_eq_ok.mp ok
      cases ok
      rw [stars_cons] at few
      rw [List.length_append] at lengths
      by_cases star : c = '*'
      · rw [if_pos star] at few
        rw [cellOf, if_pos star] at cell
        cases cell
        rw [List.length_replicate] at lengths
        have single := not_mem_of_stars (show stars s = 0 by omega)
        have behind : (digits.drop padding).length = rest.length := by
          rw [List.length_drop]
          omega
        have next := ih (by omega) others behind fun d mem => small d (List.mem_of_mem_drop mem)
        have agree : Agree (List.replicate padding none ++ rest) digits ↔
            Agree rest (digits.drop padding) := by
          have front : (digits.take padding).length = padding :=
            List.length_take_of_le (by omega)
          conv_lhs => rw [← List.take_append_drop padding digits]
          rw [agree_append (by rw [List.length_replicate, front])]
          exact and_iff_right (agree_replicate_none.mpr front)
        rw [agree, Glob, if_pos star, ← next, List.map_drop]
        constructor
        · rintro ⟨run, rest', whole, glob⟩
          have counted := congrArg List.length whole
          rw [List.length_map, List.length_append, glob.length single,
            ← length_cellsOf single others] at counted
          have runs : run.length = padding := by omega
          rw [whole, ← runs, List.drop_left]
          exact glob
        · intro glob
          exact ⟨_, _, (List.take_append_drop padding _).symm, glob⟩
      · rw [if_neg star, Nat.zero_add] at few
        have one : first.length = 1 := by
          rcases (cellOf_eq_ok star).mp cell with ⟨v, -, rfl⟩ | ⟨-, -, rfl⟩
          all_goals rfl
        rw [one] at lengths
        cases digits with
        | nil =>
            rw [List.length_nil] at lengths
            omega
        | cons d digits =>
            have hd := small d List.mem_cons_self
            have behind : digits.length = rest.length := by
              rw [List.length_cons] at lengths
              omega
            have next := ih few others behind fun e mem => small e (List.mem_cons_of_mem _ mem)
            have fits : (c = '?' ∨ c.toLower = (Nat.digitChar d).toLower) ↔ Agree first [d] := by
              rcases (cellOf_eq_ok star).mp cell with ⟨v, digit, rfl⟩ | ⟨-, any, rfl⟩
              · have plain : c ≠ '?' := by
                  rintro rfl
                  cases digit
                rw [or_iff_right plain, toLower_eq_iff digit hd]
                simp [Agree]
              · simp [Agree, any]
            have agree : Agree (first ++ rest) (d :: digits) ↔
                Agree first [d] ∧ Agree rest digits := by
              rw [← agree_append (show first.length = [d].length from one)]
              rfl
            rw [agree, Glob, if_neg star, ← fits, ← next, List.map_cons]
            constructor
            · rintro ⟨d', rest', whole, matched, glob⟩
              obtain ⟨rfl, rfl⟩ := List.cons.inj whole
              exact ⟨matched, glob⟩
            · rintro ⟨matched, glob⟩
              exact ⟨_, _, rfl, matched, glob⟩

theorem toNat_lt_pow (w : UInt32) : w.toNat < 16 ^ 8 := w.toNat_lt

/-- The eight digits of a handle. -/
theorem displayHandle_eq (h : UInt32) :
    displayHandle (.new h) = (nibbles 8 h.toNat).map Nat.digitChar := by
  rw [displayHandle, TpmInt.value_new]
  exact leftpad_toDigits (toNat_lt_pow h)

section
variable {handle : Handle} {cells : List Cell}

/-- Eight cells are the words themselves. -/
theorem Placed.toNat (placed : handle.Placed cells) (full : cells.length = 8) :
    handle.mask.toNat = Text.mask cells ∧ handle.value.toNat = Text.value cells := by
  unfold Placed at placed
  rw [full] at placed
  exact placed

theorem matches_iff (placed : handle.Placed cells) (full : cells.length = 8)
    (known : ∀ v, some v ∈ cells → v < 16) (h : UInt32) :
    handle.matches h = true ↔ Agree cells (nibbles 8 h.toNat) := by
  obtain ⟨maskWord, valueWord⟩ := placed.toNat full
  have lengths : (nibbles 8 h.toNat).length = cells.length := by rw [length_nibbles, full]
  rw [← and_mask_eq_value known (fun d => nibbles_lt) lengths, ofNibbles_nibbles (toNat_lt_pow h),
    ← maskWord, ← valueWord, ← UInt32.toNat_and, UInt32.toNat_inj]
  exact beq_iff_eq

/-- The text of a cell. -/
def cellText (cell : Cell) : Char :=
  match cell with
  | some v => Nat.digitChar v
  | none => '?'

theorem map_maskDigit_lt (cells : List Cell) : ∀ d ∈ cells.map maskDigit, d < 16 := by
  intro d mem
  obtain ⟨cell, -, rfl⟩ := List.mem_map.mp mem
  exact maskDigit_lt cell

theorem map_getD_lt (known : ∀ v, some v ∈ cells → v < 16) :
    ∀ d ∈ cells.map (·.getD 0), d < 16 := by
  intro d mem
  obtain ⟨cell, at_cell, rfl⟩ := List.mem_map.mp mem
  cases cell with
  | none => decide
  | some v => exact known v at_cell

/-- The text of a digit with its part of the mask. -/
def nibbleText (nibbleMask val : Nat) : Char :=
  if nibbleMask = 15 then Nat.digitChar val else '?'

theorem nibbleText_cell {cell : Cell} :
    nibbleText (maskDigit cell) (cell.getD 0) = cellText cell := by
  cases cell <;> rfl

/-- A shift and a mask take out one digit. -/
theorem toNat_nibble (w : UInt32) {i : Nat} (inside : i < 8) :
    ((w >>> UInt32.ofNat (i * 4)) &&& 0xf).toNat = w.toNat >>> (i * 4) % 16 := by
  have amount : (UInt32.ofNat (i * 4)).toNat = i * 4 :=
    UInt32.toNat_ofNat_of_lt' (by rw [UInt32.size]; omega)
  rw [UInt32.toNat_and, UInt32.toNat_shiftRight, amount,
    Nat.mod_eq_of_lt (show i * 4 < 32 by omega)]
  exact Nat.and_two_pow_sub_one_eq_mod _ 4

/-- A pattern with a known digit is displayed cell by cell. -/
theorem display_eq (placed : handle.Placed cells) (full : cells.length = 8)
    (known : ∀ v, some v ∈ cells → v < 16) (someKnown : handle.mask ≠ 0) :
    handle.display = cells.map cellText := by
  obtain ⟨maskWord, valueWord⟩ := placed.toNat full
  have maskDigits : nibbles 8 handle.mask.toNat = cells.map maskDigit := by
    have back := nibbles_ofNibbles (map_maskDigit_lt cells)
    rw [List.length_map, full] at back
    rw [maskWord]
    exact back
  have valueDigits : nibbles 8 handle.value.toNat = cells.map (·.getD 0) := by
    have back := nibbles_ofNibbles (map_getD_lt known)
    rw [List.length_map, full] at back
    rw [valueWord]
    exact back
  have at_digit (i : Nat) (mem : i ∈ (List.range 8).reverse) :
      (if (handle.mask >>> UInt32.ofNat (i * 4)) &&& 0xf = 0xf then
        Nat.digitChar ((handle.value >>> UInt32.ofNat (i * 4)) &&& 0xf).toNat else '?') =
      nibbleText (handle.mask.toNat >>> (i * 4) % 16) (handle.value.toNat >>> (i * 4) % 16) := by
    have inside : i < 8 := List.mem_range.mp (List.mem_reverse.mp mem)
    rw [← toNat_nibble handle.mask inside, ← toNat_nibble handle.value inside, nibbleText]
    exact if_congr UInt32.toNat_inj.symm rfl rfl
  rw [display, if_neg someKnown]
  calc (List.range 8).reverse.map _
      = (List.range 8).reverse.map fun i => nibbleText (handle.mask.toNat >>> (i * 4) % 16)
          (handle.value.toNat >>> (i * 4) % 16) := List.map_congr_left at_digit
    _ = List.zipWith nibbleText (nibbles 8 handle.mask.toNat) (nibbles 8 handle.value.toNat) := by
        rw [nibbles_eq_map, nibbles_eq_map, List.zipWith_map, List.zipWith_self]
    _ = cells.map cellText := by
        rw [maskDigits, valueDigits, List.zipWith_map, List.zipWith_self]
        exact List.map_congr_left fun cell _ => nibbleText_cell

/-- A handle without a mask has unknown digits only. -/
theorem eq_zero_of_mask (placed : handle.Placed cells) (full : cells.length = 8)
    (noMask : handle.mask = 0) : handle = ⟨0, 0⟩ := by
  obtain ⟨maskWord, valueWord⟩ := placed.toNat full
  have unknown : cells = List.replicate 8 none := by
    have back := nibbles_ofNibbles (map_maskDigit_lt cells)
    rw [List.length_map, full] at back
    change nibbles 8 (Text.mask cells) = _ at back
    rw [← maskWord, noMask] at back
    refine List.eq_replicate_iff.mpr ⟨full, fun cell mem => ?_⟩
    have zero : maskDigit cell ∈ nibbles 8 0 := back ▸ List.mem_map_of_mem mem
    rw [nibbles_zero] at zero
    cases cell with
    | none => rfl
    | some v => cases List.eq_of_mem_replicate zero
  rw [unknown] at valueWord
  have noValue : handle.value = 0 := UInt32.toNat_inj.mp valueWord
  cases handle
  exact congr (congrArg Handle.mk noMask) noValue

theorem cellText_facts {cell : Cell} (known : ∀ v, cell = some v → v < 16) (padding : Nat) :
    cellText cell ≠ '*' ∧ (cellText cell).utf8Size = 1 ∧
      cellOf padding (cellText cell) = .ok [cell] := by
  cases cell with
  | none => exact ⟨by decide, rfl, rfl⟩
  | some v =>
      have digit := toDigit_digitChar (Nat.le_refl 16) (known v rfl)
      have star : Nat.digitChar v ≠ '*' := by
        intro same
        rw [same] at digit
        cases digit
      have inRadix : (toDigit 16 (Nat.digitChar v)).isSome := by
        rw [digit]
        rfl
      refine ⟨star, (alphanum_of_toDigit inRadix).2, ?_⟩
      · rw [cellText, cellOf, if_neg star, digit]

/-- The text of cells reads as these cells. -/
theorem cellsOf_map_cellText (known : ∀ v, some v ∈ cells → v < 16) (padding : Nat) :
    cellsOf padding (cells.map cellText) = .ok cells ∧ stars (cells.map cellText) = 0 ∧
      ((cells.map cellText).map Char.utf8Size).sum = cells.length := by
  induction cells with
  | nil => exact ⟨rfl, rfl, rfl⟩
  | cons cell cells ih =>
      obtain ⟨read, no_star, size⟩ := ih fun v mem => known v (List.mem_cons_of_mem _ mem)
      obtain ⟨star, one, first⟩ :=
        cellText_facts (fun v same => known v (same ▸ List.mem_cons_self)) padding
      rw [List.map_cons, cellsOf_cons_ok first, read, stars_cons, if_neg star, no_star,
        List.map_cons, List.sum_cons, one, size, List.length_cons]
      exact ⟨rfl, rfl, Nat.add_comm ..⟩

/-- What is displayed is read back. -/
theorem fromStr_display (placed : handle.Placed cells) (full : cells.length = 8)
    (known : ∀ v, some v ∈ cells → v < 16) : Returns (fromStr handle.display) (.ok handle) := by
  by_cases noMask : handle.mask = 0
  · rw [eq_zero_of_mask placed full noMask]
    rfl
  · obtain ⟨read, no_star, size⟩ := cellsOf_map_cellText known 0
    rw [display_eq placed full known noMask]
    have other : cells.map cellText ≠ ['*'] := by
      intro same
      have counted := congrArg List.length same
      rw [List.length_map, full] at counted
      cases counted
    have length : explicitLen (cells.map cellText) = 8 := by
      rw [explicitLen, size, no_star, full]
    have sized : Sized (cells.map cellText) := .inl ⟨no_star, length⟩
    obtain ⟨result, returns, -, makes⟩ := compile_returns (cells.map cellText) placed_nil
      (Nat.le_trans (Nat.zero_add _).le sized.needed_le)
    rw [length] at returns makes
    obtain ⟨handle', rfl, placed'⟩ := makes cells read
    rw [fromStr_of_sized other sized, length]
    have same : handle' = handle := by
      obtain ⟨maskWord, valueWord⟩ := placed.toNat full
      obtain ⟨maskWord', valueWord'⟩ := placed'.toNat full
      have maskSame := UInt32.toNat_inj.mp (maskWord'.trans maskWord.symm)
      have valueSame := UInt32.toNat_inj.mp (valueWord'.trans valueWord.symm)
      cases handle
      cases handle'
      exact congr (congrArg Handle.mk maskSame) valueSame
    rw [← same]
    exact returns

end

/-- Handle patterns are globs over eight hexadecimal digits: parsing never panics; a handle matches
an accepted pattern if and only if its eight digits match the glob; and an accepted pattern is what
its own text is parsed as. -/
theorem pattern_is_glob (s : List Char) :
    (∃ result, Returns (fromStr s) result) ∧
      ∀ handle, Returns (fromStr s) (.ok handle) →
        (∀ h : UInt32, handle.matches h = true ↔ Glob s (displayHandle (.new h))) ∧
        Returns (fromStr handle.display) (.ok handle) := by
  refine ⟨fromStr_returns s, fun handle ok => ?_⟩
  obtain ⟨padding, cells, read, full, few, placed⟩ := accepted ok
  have known := (cellsOf_eq_ok read).2
  refine ⟨fun h => ?_, fromStr_display placed full known⟩
  have lengths : (nibbles 8 h.toNat).length = cells.length := by rw [length_nibbles, full]
  rw [matches_iff placed full known, displayHandle_eq,
    glob_iff few read lengths fun d => nibbles_lt]

/-- The star of `8*C1` stands for five digits. -/
theorem pattern_is_glob_star :
    Glob ['8', '*', 'C', '1'] (displayHandle (.new 0x80abcdc1)) ∧
      Returns (fromStr (display ⟨0xf00000ff, 0x800000c1⟩)) (.ok ⟨0xf00000ff, 0x800000c1⟩) := by
  have pattern := (pattern_is_glob ['8', '*', 'C', '1']).2 ⟨0xf00000ff, 0x800000c1⟩ rfl
  exact ⟨(pattern.1 0x80abcdc1).mp rfl, pattern.2⟩

end Handle
end Tpm2
