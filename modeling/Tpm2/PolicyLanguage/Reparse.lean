import Tpm2.PolicyLanguage.Reread

/-! What a printed expression means when it is parsed again: when its policy compiles, and when to
the same digest. -/

namespace Tpm2

open ByteCodec Text

namespace TpmPolicyExpression

mutual

/-- The branches of a disjunction that is read again: a leading disjunction leaves its branches to
the one around it. -/
def width : TpmPolicyExpression → Nat
  | or branches => widthAll branches
  | _ => 1

def widthAll : List TpmPolicyExpression → Nat
  | [] => 0
  | branch :: branches => branch.width + branches.length

end

mutual

/-- No disjunction has more than eight branches when it is read again. -/
def Fits : TpmPolicyExpression → Prop
  | or branches => widthAll branches ≤ 8 ∧ FitsAll branches
  | and branches => FitsAll branches
  | _ => True

def FitsAll : List TpmPolicyExpression → Prop
  | [] => True
  | branch :: branches => branch.Fits ∧ FitsAll branches

end

/-- The first branch is a disjunction. -/
def LeadingOr : List TpmPolicyExpression → Prop
  | or _ :: _ => True
  | _ => False

mutual

/-- Reading the printed expression again keeps what its digest binds: the bitmaps of `pcr` leaves
have the context's size, and no disjunction leads another. Where a later branch of an `And` starts
the session over, the branches before it do not count. -/
def Kept (context : TpmPolicyContext) : TpmPolicyExpression → Prop
  | pcr selections _ => ∀ tpms ∈ selections.items, tpms.Sized context
  | or branches => ¬ LeadingOr branches ∧ KeptEach context branches
  | and branches => KeptUntil context branches
  | _ => True

def KeptEach (context : TpmPolicyContext) : List TpmPolicyExpression → Prop
  | [] => True
  | branch :: branches => branch.Kept context ∧ KeptEach context branches

def KeptUntil (context : TpmPolicyContext) : List TpmPolicyExpression → Prop
  | [] => True
  | branch :: branches =>
      (anyRestarts branches ∨ branch.Kept context) ∧ KeptUntil context branches

end

section
variable {hex : Hex} {crypto : Libcrypto} {alg : TpmHash} {context : TpmPolicyContext}

theorem selectedValues_resized {tpms resized : TpmsPcrSelection}
    (resizes : tpms.Resized context resized) :
    selectedValues context resized = selectedValues context tpms := by
  obtain ⟨alg, hash, selects⟩ := resizes
  have indices := pcrIndices_selectPcrs tpms.pcrSelect.length_le selects
  rw [selectedValues, selectedValues, indices, (selectPcrs_eq_ok.mp selects).2.1, hash]

/-- A resized leaf resolves to the same digest. -/
theorem resolvePcrDigest_resized {selections resized : TpmlPcrSelection}
    (resizes : selections.Resized context resized) (session : TpmPolicySession)
    (digest : Option Tpm2bDigest) :
    resolvePcrDigest crypto session context resized digest =
      resolvePcrDigest crypto session context selections digest := by
  cases digest with
  | some digest => rfl
  | none =>
      have values (items resized : List TpmsPcrSelection)
          (resizes : List.Forall₂ (TpmsPcrSelection.Resized context) items resized) :
          resized.mapM (selectedValues context) = items.mapM (selectedValues context) := by
        induction resizes with
        | nil => rfl
        | cons first others ih => rw [List.mapM_cons, List.mapM_cons, selectedValues_resized first,
          ih]
      rw [resolvePcrDigest, resolvePcrDigest, values _ _ resizes]

/-- A conjunction compiles alike with its branches regrouped. -/
theorem compileWalk_regroup_and {first : TpmPolicyExpression} {others : List TpmPolicyExpression}
    (nonempty : others ≠ []) (c : Compilation) :
    (Operator.and.regroup (first :: others)).compileWalk crypto context c =
      (and (first :: others)).compileWalk crypto context c := by
  have flattened : compileWalkBranches crypto context (Operator.and.operands first) c =
      (first.compileWalk crypto context c).map Prod.snd := by
    cases first with
    | and branches =>
        show compileWalkBranches crypto context branches c = _
        rw [compileWalk]
        cases compileWalkBranches crypto context branches c <;> rfl
    | _ =>
        show (compileWalk crypto context _ c >>= fun result => .ok result.2) = _
        cases compileWalk crypto context _ c <;> rfl
  rw [Operator.and.regroup_cons first nonempty]
  show compileWalk crypto context (and _) c = _
  rw [compileWalk, compileWalkBranches_append, flattened, compileWalk, compileWalkBranches]
  cases first.compileWalk crypto context c <;> rfl

/-- Only a disjunction brings its branches into one around it. -/
theorem operands_of_rereads {expression reread : TpmPolicyExpression}
    (branched : expression.Branched) (rereads : expression.Rereads hex context reread)
    (other : ∀ branches, expression ≠ or branches) : Operator.or.operands reread = [reread] := by
  cases expression with
  | pcr selections digest =>
      obtain ⟨-, resized, -, rfl⟩ := rereads_pcr.mp rereads
      rfl
  | secret authHandle copyRef =>
      obtain ⟨object, -, rfl⟩ := rereads_secret.mp rereads
      rfl
  | handle value =>
      obtain ⟨-, rfl⟩ := rereads_handle.mp rereads
      rfl
  | and branches =>
      obtain ⟨first, others, -, nonempty, rfl⟩ :=
        rereads_branches .and branched.1 rereads
      rw [Operator.regroup_cons _ _ nonempty]
      rfl
  | or branches => exact absurd rfl (other branches)

mutual

/-- The width of an expression is how many branches it brings into the disjunction around it. -/
theorem length_operands {expression reread : TpmPolicyExpression}
    (branched : expression.Branched) (rereads : expression.Rereads hex context reread) :
    (Operator.or.operands reread).length = expression.width := by
  cases expression with
  | or branches =>
      obtain ⟨first, others, related, nonempty, rfl⟩ :=
        rereads_branches .or branched.1 rereads
      rw [Operator.regroup_cons _ _ nonempty]
      exact length_operandsAll branched.2 related
  | _ =>
      rw [operands_of_rereads branched rereads (by simp)]
      rfl

theorem length_operandsAll {branches others : List TpmPolicyExpression}
    {first : TpmPolicyExpression} (branched : BranchedAll branches)
    (related : List.Forall₂ (Rereads hex context) branches (first :: others)) :
    (Operator.or.operands first ++ others).length = widthAll branches := by
  cases related with
  | cons rereads rest =>
      rw [List.length_append, length_operands branched.1 rereads, ← rest.length_eq, widthAll]

end

/-- A disjunction compiles if its branches do. -/
theorem exists_compileWalk_or_iff (total : crypto.Total alg) {branches : List TpmPolicyExpression}
    {c : Compilation}
    (ready : c.softwareSession.Ready crypto alg) :
    (∃ result, (or branches).compileWalk crypto context c = .ok result) ↔
      ∃ result, compileWalkOr crypto context branches .new c = .ok result := by
  constructor
  · rintro ⟨_, ok⟩
    obtain ⟨result, walked, -⟩ := bind_eq_ok.mp ok
    exact ⟨result, walked⟩
  · rintro ⟨⟨list, d⟩, walked⟩
    obtain ⟨session, applied⟩ :=
      (compileWalkOr_ready ready walked).exists_policyOr total ⟨.one (.new 0), list, ()⟩
    exact ⟨_, bind_eq_ok.mpr ⟨_, walked, bind_eq_ok.mpr ⟨session, applied, rfl⟩⟩⟩

/-- The branches that `reread` brings into a disjunction compile if it does. -/
theorem exists_compileWalkOr_operands_iff (total : crypto.Total alg)
    {reread : TpmPolicyExpression} {fits : Prop}
    (each : ∀ c : Compilation, c.softwareSession.Ready crypto alg →
      ((∃ result, reread.compileWalk crypto context c = .ok result) ↔ fits))
    {c : Compilation} (ready : c.softwareSession.Ready crypto alg) :
    (∃ result, compileWalkOr crypto context (Operator.or.operands reread) .new c = .ok result) ↔
      fits := by
  have alone : (∃ result, compileWalkOr crypto context [reread] .new c = .ok result) ↔ fits := by
    obtain ⟨session, restarted⟩ := ready.exists_policyRestart
    have started : session.Ready crypto alg := ready.policyRestart restarted
    rw [← each { c.push (.policyRestart ⟨.one (.new 0), ()⟩) with softwareSession := session }
      started]
    constructor
    · rintro ⟨⟨list, d⟩, ok⟩
      obtain ⟨session', digest, e, pushed, restarted', walked, -, -⟩ :=
        compileWalkOr_cons_eq_ok.mp ok
      obtain rfl : session = session' := Except.ok.inj (restarted.symm.trans restarted')
      exact ⟨_, walked⟩
    · rintro ⟨⟨digest, d⟩, walked⟩
      have room : (TpmList.new : TpmlDigest).items.length < 8 := by decide
      exact ⟨(⟨[digest], by simp⟩, d), compileWalkOr_cons_eq_ok.mpr ⟨session, digest, d, _,
        restarted, walked, TpmList.tryPush_eq_ok.mpr ⟨room, rfl⟩, rfl⟩⟩
  cases reread with
  | or branches =>
      show (∃ result, compileWalkOr crypto context branches .new c = .ok result) ↔ fits
      rw [← exists_compileWalk_or_iff total ready, each c ready]
  | _ => exact alone

mutual

/-- An expression that compiles still does when it is read again if its disjunctions fit. -/
theorem exists_compileWalk_reread_iff {expression reread : TpmPolicyExpression}
    {c c' d : Compilation} {g : Tpm2bDigest} (total : crypto.Total alg)
    (branched : expression.Branched)
    (rereads : expression.Rereads hex context reread)
    (ready : c.softwareSession.Ready crypto alg) (ready' : c'.softwareSession.Ready crypto alg)
    (ok : expression.compileWalk crypto context c = .ok (g, d)) :
    (∃ result, reread.compileWalk crypto context c' = .ok result) ↔ expression.Fits := by
  cases expression with
  | pcr selections digest =>
      obtain ⟨-, resized, resizes, rfl⟩ := rereads_pcr.mp rereads
      obtain ⟨pcrDigest, session, resolved, size, -⟩ := compileWalkPcr_eq_ok.mp ok
      rw [resolvePcrDigest_same ready ready', ← resolvePcrDigest_resized resizes] at resolved
      obtain ⟨next, applied⟩ :=
        ready'.exists_policyPcr total ⟨.one (.new 0), pcrDigest, resized, ()⟩
      have sizes := ready.digestSize.trans ready'.digestSize.symm
      simp only [Fits, iff_true]
      exact ⟨_, compileWalkPcr_eq_ok.mpr
        ⟨pcrDigest, next, resolved, size.trans sizes, applied, rfl, rfl⟩⟩
  | secret authHandle copyRef =>
      obtain ⟨object, name, session, rfl, named, -⟩ := compileWalkSecret_eq_ok.mp ok
      obtain ⟨_, again, rfl⟩ := rereads_secret.mp rereads
      obtain ⟨-, rfl⟩ := rereads_handle.mp again
      obtain ⟨next, applied⟩ := ready'.exists_policySecret total name
        ((copyRef.filter fun reference => !reference.bytes.isEmpty).getD .new)
      simp only [Fits, iff_true]
      exact ⟨_, compileWalkSecret_eq_ok.mpr ⟨object, name, next, rfl, named, applied, rfl, rfl⟩⟩
  | handle value => cases ok
  | and branches =>
      obtain ⟨first, others, related, nonempty, rfl⟩ :=
        rereads_branches .and branched.1 rereads
      obtain ⟨e, walked, -⟩ := bind_eq_ok.mp ok
      rw [compileWalk_regroup_and nonempty, Fits,
        ← exists_compileWalkBranches_reread_iff total branched.2 related ready ready' walked]
      constructor
      · rintro ⟨_, compiled⟩
        obtain ⟨d', walked', -⟩ := bind_eq_ok.mp compiled
        exact ⟨d', walked'⟩
      · rintro ⟨d', walked'⟩
        exact ⟨_, bind_eq_ok.mpr ⟨d', walked', rfl⟩⟩
  | or branches =>
      obtain ⟨first, others, related, nonempty, rfl⟩ :=
        rereads_branches .or branched.1 rereads
      rw [Operator.regroup_cons _ _ nonempty, Fits, ← length_operandsAll branched.2 related]
      show (∃ result, compileWalk crypto context (or _) c' = .ok result) ↔ _
      rw [exists_compileWalk_or_iff total ready', compileWalkOr_append]
      obtain ⟨⟨list, e⟩, walked, -⟩ := bind_eq_ok.mp ok
      cases related with
      | @cons branch _ branches _ firstRead othersRead =>
          obtain ⟨session, digest, c₁, pushed, restarted, walkedFirst, -, walkedOthers⟩ :=
            compileWalkOr_cons_eq_ok.mp walked
          have started : session.Ready crypto alg := ready.policyRestart restarted
          have ready₁ := (compileWalk_ready started walkedFirst).1
          have opens := exists_compileWalkOr_operands_iff total (fun c readyc =>
            exists_compileWalk_reread_iff total branched.2.1 firstRead started readyc walkedFirst)
              ready'
          rw [FitsAll, ← opens, List.length_append, ← othersRead.length_eq]
          constructor
          · rintro ⟨result, compiled⟩
            obtain ⟨⟨list₁, c₁'⟩, walkedOperands, compiled⟩ := bind_eq_ok.mp compiled
            have ready₁' := compileWalkOr_ready ready' walkedOperands
            obtain ⟨fits, room⟩ := (exists_compileWalkOr_reread_iff total branched.2.2 othersRead
              ready₁
              ready₁' walkedOthers).mp ⟨result, compiled⟩
            rw [length_compileWalkOr walkedOperands] at room
            exact ⟨by simpa [TpmList.new] using room, ⟨_, walkedOperands⟩, fits⟩
          · rintro ⟨room, ⟨⟨list₁, c₁'⟩, walkedOperands⟩, fits⟩
            have ready₁' := compileWalkOr_ready ready' walkedOperands
            obtain ⟨result, compiled⟩ := (exists_compileWalkOr_reread_iff total branched.2.2
              othersRead
              ready₁ ready₁' walkedOthers).mpr ⟨fits, by
                rw [length_compileWalkOr walkedOperands]
                simpa [TpmList.new] using room⟩
            exact ⟨result, bind_eq_ok.mpr ⟨_, walkedOperands, compiled⟩⟩

theorem exists_compileWalkBranches_reread_iff {branches rereads : List TpmPolicyExpression}
    {c c' d : Compilation} (total : crypto.Total alg) (branched : BranchedAll branches)
    (related : List.Forall₂ (Rereads hex context) branches rereads)
    (ready : c.softwareSession.Ready crypto alg) (ready' : c'.softwareSession.Ready crypto alg)
    (ok : compileWalkBranches crypto context branches c = .ok d) :
    (∃ d', compileWalkBranches crypto context rereads c' = .ok d') ↔ FitsAll branches := by
  cases related with
  | nil => exact iff_of_true ⟨_, rfl⟩ trivial
  | @cons branch reread branches rereads first others =>
      obtain ⟨⟨digest, e⟩, walked, rest⟩ := bind_eq_ok.mp ok
      have ready₁ := (compileWalk_ready ready walked).1
      have fits := exists_compileWalk_reread_iff total branched.1 first ready ready' walked
      rw [FitsAll, ← fits]
      constructor
      · rintro ⟨d', ok'⟩
        obtain ⟨⟨digest', e'⟩, walked', rest'⟩ := bind_eq_ok.mp ok'
        have ready₁' := (compileWalk_ready ready' walked').1
        exact ⟨⟨_, walked'⟩, (exists_compileWalkBranches_reread_iff total branched.2 others ready₁
          ready₁'
          rest).mp ⟨d', rest'⟩⟩
      · rintro ⟨⟨⟨digest', e'⟩, walked'⟩, fitsAll⟩
        have ready₁' := (compileWalk_ready ready' walked').1
        obtain ⟨d', rest'⟩ := (exists_compileWalkBranches_reread_iff total branched.2 others ready₁
          ready₁'
          rest).mpr fitsAll
        exact ⟨d', bind_eq_ok.mpr ⟨_, walked', rest'⟩⟩

theorem exists_compileWalkOr_reread_iff {branches rereads : List TpmPolicyExpression}
    {list list' result : TpmlDigest} {c c' d : Compilation} (total : crypto.Total alg)
    (branched : BranchedAll branches)
    (related : List.Forall₂ (Rereads hex context) branches rereads)
    (ready : c.softwareSession.Ready crypto alg) (ready' : c'.softwareSession.Ready crypto alg)
    (ok : compileWalkOr crypto context branches list c = .ok (result, d)) :
    (∃ result', compileWalkOr crypto context rereads list' c' = .ok result') ↔
      FitsAll branches ∧ list'.items.length + branches.length ≤ 8 := by
  cases related with
  | nil => exact iff_of_true ⟨_, rfl⟩ ⟨trivial, list'.length_le⟩
  | @cons branch reread branches rereads first others =>
      obtain ⟨session, digest, c₁, pushed, restarted, walked, push, rest⟩ :=
        compileWalkOr_cons_eq_ok.mp ok
      obtain ⟨session', restarted'⟩ := ready'.exists_policyRestart
      have started : session.Ready crypto alg := ready.policyRestart restarted
      have started' : session'.Ready crypto alg := ready'.policyRestart restarted'
      have ready₁ := (compileWalk_ready started walked).1
      have compiles : (∃ result, reread.compileWalk crypto context { c'.push (.policyRestart
          ⟨.one (.new 0), ()⟩) with softwareSession := session' } = .ok result) ↔ branch.Fits :=
        exists_compileWalk_reread_iff total branched.1 first started started' walked
      rw [FitsAll, ← compiles, List.length_cons]
      constructor
      · rintro ⟨⟨result', d'⟩, ok'⟩
        obtain ⟨session₁', digest', c₁', pushed', again, walked', push', rest'⟩ :=
          compileWalkOr_cons_eq_ok.mp ok'
        obtain rfl : session' = session₁' := Except.ok.inj (restarted'.symm.trans again)
        have ready₁' := (compileWalk_ready (c := { c'.push _ with softwareSession := session' })
          started' walked').1
        obtain ⟨fits, room⟩ := (exists_compileWalkOr_reread_iff total branched.2 others ready₁
          ready₁'
          rest).mp ⟨_, rest'⟩
        rw [(TpmList.tryPush_eq_ok.mp push').2, List.length_append, List.length_singleton] at room
        exact ⟨⟨⟨_, walked'⟩, fits⟩, by omega⟩
      · rintro ⟨⟨⟨⟨digest', c₁'⟩, walked'⟩, fits⟩, room⟩
        have ready₁' := (compileWalk_ready (c := { c'.push _ with softwareSession := session' })
          started' walked').1
        have free : list'.items.length < 8 := by omega
        obtain ⟨pushed', items'⟩ : ∃ pushed' : TpmlDigest,
            pushed'.items = list'.items ++ [digest'] := ⟨⟨_, by simp; omega⟩, rfl⟩
        have push' : list'.tryPush digest' = .ok pushed' :=
          TpmList.tryPush_eq_ok.mpr ⟨free, items'⟩
        have room' : pushed'.items.length + branches.length ≤ 8 := by
          rw [items', List.length_append, List.length_singleton]
          omega
        obtain ⟨result', rest'⟩ := (exists_compileWalkOr_reread_iff total branched.2 others ready₁
          ready₁'
          rest).mpr ⟨fits, room'⟩
        exact ⟨result', compileWalkOr_cons_eq_ok.mpr ⟨session', digest', c₁', pushed', restarted',
          walked', push', rest'⟩⟩

end

/-- Digests tell what was hashed: there are no collisions, and they are not empty. -/
def Separates (crypto : Libcrypto) (alg : TpmHash) : Prop :=
  HashChain.CollisionFree (crypto.hash alg) ∧ 0 < crypto.size alg

/-- How two sessions compare after an expression and after what it is read as: they agree if the
step is kept, and starts them over or found them in agreement; and only then, if digests tell what
was hashed. -/
def Tracks (separates kept : Prop) (restarts : Bool)
    (before before' after after' : TpmPolicySession) : Prop :=
  (kept ∧ (restarts ∨ before = before') → after = after') ∧
    (separates → after = after' → kept ∧ (restarts ∨ before = before'))

theorem Tracks.trans {separates kept kept' : Prop} {restarts restarts' : Bool}
    {before before' middle middle' after after' : TpmPolicySession}
    (first : Tracks separates kept restarts before before' middle middle')
    (second : Tracks separates kept' restarts' middle middle' after after') :
    Tracks separates ((restarts' ∨ kept) ∧ kept') (restarts || restarts') before before' after
      after' := by
  unfold Tracks at first second ⊢
  rw [Bool.or_eq_true]
  constructor
  · tauto
  · tauto

theorem sizes_compileWalkOr {branches : List TpmPolicyExpression} {result : TpmlDigest}
    {c d : Compilation} (ready : c.softwareSession.Ready crypto alg)
    (ok : compileWalkOr crypto context branches .new c = .ok (result, d)) :
    ∀ digest ∈ result.items, digest.bytes.length = crypto.size alg := by
  obtain ⟨digests, items, -, sizes⟩ := compileWalkOr_digests ready ready ok ok
  rw [items]
  simpa [TpmList.new] using sizes

/-- Two disjunctions agree if and only if the digests of their branches do. -/
theorem policyOr_tracks {session session' next next' : TpmPolicySession} {list list' : TpmlDigest}
    (ready : session.Ready crypto alg) (ready' : session'.Ready crypto alg)
    (ok : session.policyOr crypto ⟨.one (.new 0), list, ()⟩ = .ok next)
    (ok' : session'.policyOr crypto ⟨.one (.new 0), list', ()⟩ = .ok next')
    (sizes : ∀ digest ∈ list.items, digest.bytes.length = crypto.size alg)
    (sizes' : ∀ digest ∈ list'.items, digest.bytes.length = crypto.size alg) :
    (list = list' → next = next') ∧ (Separates crypto alg → next = next' → list = list') := by
  constructor
  · rintro rfl
    rw [ready.policyOr_eq ready', ok'] at ok
    exact (Except.ok.inj ok).symm
  · rintro ⟨free, nonempty⟩ same
    have joined := policyOr_inj free ready ready' ok ok' (congrArg TpmPolicySession.digest same)
    have total {list : TpmlDigest}
        (sizes : ∀ digest ∈ list.items, digest.bytes.length = crypto.size alg) :
        (list.items.map TpmBuffer.bytes).flatten.length = list.items.length * crypto.size alg := by
      rw [List.length_flatten, List.map_map, List.map_congr_left (g := fun _ => crypto.size alg)
        (by simpa using sizes)]
      simp
    have count : list.items.length = list'.items.length := by
      have lengths := congrArg List.length joined
      rw [total sizes] at lengths
      exact Nat.eq_of_mul_eq_mul_right nonempty (lengths.trans (total sizes'))
    by_contra differ
    exact policyOr_separates free ready ready' ok ok' count sizes sizes' differ
      (congrArg TpmPolicySession.digest same)

theorem one_le_width {expression : TpmPolicyExpression} (branched : expression.Branched) :
    1 ≤ expression.width := by
  cases expression with
  | or branches =>
      obtain _ | ⟨branch, branches⟩ := branches
      · simp [Branched] at branched
      · have two := branched.1
        rw [width, widthAll]
        simp only [List.length_cons] at two
        omega
  | _ => exact Nat.le_refl 1

/-- A disjunction that leads another one adds branches to it. -/
theorem length_lt_widthAll {branches : List TpmPolicyExpression} (branched : BranchedAll branches)
    (leading : LeadingOr branches) : branches.length < widthAll branches := by
  obtain _ | ⟨_ | _ | _ | inner | _, branches⟩ := branches <;> try cases leading
  obtain _ | ⟨branch, inner⟩ := inner
  · simp [BranchedAll, Branched] at branched
  · have two := branched.1.1
    have one := one_le_width branched.1.2.1
    simp only [widthAll, width, List.length_cons] at two ⊢
    omega

mutual

theorem compileWalk_tracks {expression reread : TpmPolicyExpression}
    {c c' d d' : Compilation} {g g' : Tpm2bDigest} (branched : expression.Branched)
    (rereads : expression.Rereads hex context reread)
    (ready : c.softwareSession.Ready crypto alg) (ready' : c'.softwareSession.Ready crypto alg)
    (ok : expression.compileWalk crypto context c = .ok (g, d))
    (ok' : reread.compileWalk crypto context c' = .ok (g', d')) :
    Tracks (Separates crypto alg) (expression.Kept context) expression.restarts
      c.softwareSession c'.softwareSession d.softwareSession d'.softwareSession := by
  cases expression with
  | pcr selections digest =>
      obtain ⟨readable, resized, resizes, rfl⟩ := rereads_pcr.mp rereads
      obtain ⟨pcrDigest, session, resolved, -, applied, -, rfl⟩ := compileWalkPcr_eq_ok.mp ok
      obtain ⟨pcrDigest', session', resolved', -, applied', -, rfl⟩ := compileWalkPcr_eq_ok.mp ok'
      obtain rfl : pcrDigest = pcrDigest' := by
        rw [resolvePcrDigest_resized resizes, resolvePcrDigest_same ready' ready, resolved]
          at resolved'
        exact Except.ok.inj resolved'
      rw [Kept, readable.forall_sized_iff resizes]
      simp only [Tracks, restarts, Bool.false_eq_true, false_or]
      constructor
      · rintro ⟨rfl, same⟩
        rw [same, applied'] at applied
        exact (Except.ok.inj applied).symm
      · rintro ⟨free, -⟩ (same : session = session')
        obtain ⟨before, pcrs, -⟩ :=
          policyPcr_inj free ready ready' applied applied' (congrArg TpmPolicySession.digest same)
        exact ⟨pcrs, ready.ext ready' before⟩
  | secret authHandle copyRef =>
      obtain ⟨object, again, rfl⟩ := rereads_secret.mp rereads
      obtain ⟨value, -, -, rfl, -⟩ := compileWalkSecret_eq_ok.mp ok
      obtain ⟨-, rfl⟩ := rereads_handle.mp again
      have walked' : (secret (handle value) copyRef).compileWalk crypto context c' =
        .ok (g', d') := by
        rw [compileWalk, compileWalkSecret_eq_ok] at ok' ⊢
        rwa [getD_reference_filter] at ok'
      simp only [Tracks, Kept, restarts, Bool.false_eq_true, false_or, true_and]
      constructor
      · exact fun same => (compileWalk_same same ok walked').2
      · rintro ⟨free, -⟩ same
        have follows := compileWalk_follows free ready ready' ok walked'
        by_contra differ
        exact follows (fun before => differ (ready.ext ready' before))
          (congrArg TpmPolicySession.digest same)
  | handle value => cases ok
  | and branches =>
      obtain ⟨first, others, related, nonempty, rfl⟩ :=
        rereads_branches .and branched.1 rereads
      rw [compileWalk_regroup_and nonempty] at ok'
      obtain ⟨e, walked, ok⟩ := bind_eq_ok.mp ok
      obtain ⟨e', walked', ok'⟩ := bind_eq_ok.mp ok'
      cases ok
      cases ok'
      exact compileWalkBranches_tracks branched.2 related ready ready' walked walked'
  | or branches =>
      obtain ⟨first, others, related, nonempty, rfl⟩ :=
        rereads_branches .or branched.1 rereads
      rw [Operator.regroup_cons _ _ nonempty] at ok'
      obtain ⟨⟨list, e⟩, walked, ok⟩ := bind_eq_ok.mp ok
      obtain ⟨session, applied, ok⟩ := bind_eq_ok.mp ok
      obtain ⟨⟨list', e'⟩, walked', ok'⟩ := bind_eq_ok.mp ok'
      obtain ⟨session', applied', ok'⟩ := bind_eq_ok.mp ok'
      cases ok
      cases ok'
      have lists := policyOr_tracks (compileWalkOr_ready ready walked)
        (compileWalkOr_ready ready' walked') applied applied' (sizes_compileWalkOr ready walked)
        (sizes_compileWalkOr ready' walked')
      have kept : (Kept context (or branches) → list = list') ∧
          (Separates crypto alg → list = list' → Kept context (or branches)) := by
        by_cases leading : LeadingOr branches
        · refine ⟨fun keeps => absurd leading keeps.1, ?_⟩
          rintro - rfl
          have more := length_lt_widthAll branched.2 leading
          have count := (length_compileWalkOr walked).symm.trans (length_compileWalkOr walked')
          rw [length_operandsAll branched.2 related] at count
          omega
        · rw [Kept, and_iff_right leading]
          have alone : Operator.or.operands first = [first] := by
            cases related with
            | cons firstRead _ =>
                apply operands_of_rereads branched.2.1 firstRead
                rintro inner rfl
                exact leading trivial
          rw [alone] at walked'
          obtain ⟨digests, digests', items, items', tracks⟩ :=
            compileWalkOr_tracks branched.2 related ready ready' walked walked'
          have lists : list = list' ↔ digests = digests' := by
            constructor
            · rintro rfl
              exact List.append_cancel_left (items.symm.trans items')
            · rintro rfl
              exact TpmList.ext (items.trans items'.symm)
          rw [lists]
          exact tracks
      simp only [Tracks, restarts, true_or, and_true]
      exact ⟨fun keeps => lists.1 (kept.1 keeps), fun free same => kept.2 free (lists.2 free same)⟩

theorem compileWalkBranches_tracks {branches rereads : List TpmPolicyExpression}
    {c c' d d' : Compilation} (branched : BranchedAll branches)
    (related : List.Forall₂ (Rereads hex context) branches rereads)
    (ready : c.softwareSession.Ready crypto alg) (ready' : c'.softwareSession.Ready crypto alg)
    (ok : compileWalkBranches crypto context branches c = .ok d)
    (ok' : compileWalkBranches crypto context rereads c' = .ok d') :
    Tracks (Separates crypto alg) (KeptUntil context branches) (anyRestarts branches)
      c.softwareSession c'.softwareSession d.softwareSession d'.softwareSession := by
  cases related with
  | nil =>
      cases ok
      cases ok'
      simp [Tracks, KeptUntil, anyRestarts]
  | cons first others =>
      obtain ⟨⟨digest, e⟩, walked, rest⟩ := bind_eq_ok.mp ok
      obtain ⟨⟨digest', e'⟩, walked', rest'⟩ := bind_eq_ok.mp ok'
      have ready₁ := (compileWalk_ready ready walked).1
      have ready₁' := (compileWalk_ready ready' walked').1
      exact (compileWalk_tracks branched.1 first ready ready' walked walked').trans
        (compileWalkBranches_tracks branched.2 others ready₁ ready₁' rest rest')

theorem compileWalkOr_tracks {branches rereads : List TpmPolicyExpression}
    {list list' result result' : TpmlDigest} {c c' d d' : Compilation}
    (branched : BranchedAll branches)
    (related : List.Forall₂ (Rereads hex context) branches rereads)
    (ready : c.softwareSession.Ready crypto alg) (ready' : c'.softwareSession.Ready crypto alg)
    (ok : compileWalkOr crypto context branches list c = .ok (result, d))
    (ok' : compileWalkOr crypto context rereads list' c' = .ok (result', d')) :
    ∃ digests digests', result.items = list.items ++ digests ∧
      result'.items = list'.items ++ digests' ∧
      (KeptEach context branches → digests = digests') ∧
      (Separates crypto alg → digests = digests' → KeptEach context branches) := by
  cases related with
  | nil =>
      cases ok
      cases ok'
      exact ⟨[], [], by simp, by simp, fun _ => rfl, fun _ _ => trivial⟩
  | cons first others =>
      obtain ⟨session, digest, e, pushed, restarted, walked, push, rest⟩ :=
        compileWalkOr_cons_eq_ok.mp ok
      obtain ⟨session', digest', e', pushed', restarted', walked', push', rest'⟩ :=
        compileWalkOr_cons_eq_ok.mp ok'
      have started : session.Ready crypto alg := ready.policyRestart restarted
      have same : session = session' := by
        rw [ready.policyRestart_eq ready', restarted'] at restarted
        exact (Except.ok.inj restarted).symm
      have started' : session'.Ready crypto alg := same ▸ started
      obtain ⟨ready₁, digested⟩ := compileWalk_ready started walked
      obtain ⟨ready₁', digested'⟩ := compileWalk_ready started' walked'
      have tracks := compileWalk_tracks branched.1 first started started' walked walked'
      obtain ⟨digests, digests', items, items', trackEach⟩ :=
        compileWalkOr_tracks branched.2 others ready₁ ready₁' rest rest'
      rw [(TpmList.tryPush_eq_ok.mp push).2] at items
      rw [(TpmList.tryPush_eq_ok.mp push').2] at items'
      refine ⟨digest :: digests, digest' :: digests', by simp [items], by simp [items'], ?_, ?_⟩
      · rintro ⟨keeps, keepsEach⟩
        rw [trackEach.1 keepsEach, digested, digested', tracks.1 ⟨keeps, .inr same⟩]
      · intro free equal
        obtain ⟨head, tail⟩ := List.cons.inj equal
        rw [digested, digested'] at head
        exact ⟨(tracks.2 free (ready₁.ext ready₁' head)).1, trackEach.2 free tail⟩

end

theorem compile_eq_ok {sessionHashAlg : TpmAlgId} {expression : TpmPolicyExpression}
    {policy : TpmCompiledPolicy} :
    expression.compile crypto sessionHashAlg context = .ok policy ↔ ∃ session d,
      TpmPolicySession.new crypto sessionHashAlg = .ok session ∧
      expression.compileWalk crypto context ⟨[], session⟩ = .ok (policy.digest, d) ∧
      policy.commands = d.commandList := by
  constructor
  · intro ok
    obtain ⟨session, created, ok⟩ := bind_eq_ok.mp ok
    obtain ⟨⟨digest, d⟩, walked, ok⟩ := bind_eq_ok.mp ok
    cases ok
    exact ⟨session, d, created, walked, rfl⟩
  · obtain ⟨commands, digest⟩ := policy
    rintro ⟨session, d, created, walked, rfl⟩
    exact bind_eq_ok.mpr ⟨session, created, bind_eq_ok.mpr ⟨_, walked, rfl⟩⟩

section
variable {sessionHashAlg : TpmAlgId} {expression reread : TpmPolicyExpression}
  {policy policy' : TpmCompiledPolicy}

/-- What an expression is read as compiles if its disjunctions fit. -/
theorem exists_compile_reread_iff (valid : TpmHash.tryFrom sessionHashAlg = .ok alg)
    (total : crypto.Total alg) (branched : expression.Branched)
    (rereads : expression.Rereads hex context reread)
    (ok : expression.compile crypto sessionHashAlg context = .ok policy) :
    (∃ policy', reread.compile crypto sessionHashAlg context = .ok policy') ↔
      expression.Fits := by
  obtain ⟨session, d, created, walked, -⟩ := compile_eq_ok.mp ok
  have ready := TpmPolicySession.new_ready valid created
  have compiles : (∃ result, reread.compileWalk crypto context ⟨[], session⟩ = .ok result) ↔
      expression.Fits :=
    exists_compileWalk_reread_iff total branched rereads ready ready walked
  rw [← compiles]
  constructor
  · rintro ⟨policy', ok'⟩
    obtain ⟨session', d', created', walked', -⟩ := compile_eq_ok.mp ok'
    obtain rfl : session = session' := Except.ok.inj (created.symm.trans created')
    exact ⟨_, walked'⟩
  · rintro ⟨⟨digest, d'⟩, walked'⟩
    exact ⟨⟨d'.commandList, digest⟩, compile_eq_ok.mpr ⟨session, d', created, walked', rfl⟩⟩

/-- It compiles to the same digest if what the digest binds is kept, and only then if digests tell
what was hashed. -/
theorem compile_reread_digest (valid : TpmHash.tryFrom sessionHashAlg = .ok alg)
    (branched : expression.Branched) (rereads : expression.Rereads hex context reread)
    (ok : expression.compile crypto sessionHashAlg context = .ok policy)
    (ok' : reread.compile crypto sessionHashAlg context = .ok policy') :
    (expression.Kept context → policy'.digest = policy.digest) ∧
      (Separates crypto alg → policy'.digest = policy.digest → expression.Kept context) := by
  obtain ⟨session, d, created, walked, -⟩ := compile_eq_ok.mp ok
  obtain ⟨session', d', created', walked', -⟩ := compile_eq_ok.mp ok'
  obtain rfl : session = session' := Except.ok.inj (created.symm.trans created')
  have ready := TpmPolicySession.new_ready valid created
  have tracks := compileWalk_tracks branched rereads ready ready walked walked'
  obtain ⟨readyd, digest⟩ := compileWalk_ready (c := ⟨[], session⟩) ready walked
  obtain ⟨readyd', digest'⟩ := compileWalk_ready (c := ⟨[], session⟩) ready walked'
  rw [digest, digest']
  constructor
  · intro keeps
    rw [tracks.1 ⟨keeps, .inr rfl⟩]
  · intro free same
    exact (tracks.2 free (readyd.ext readyd' same.symm)).1

/-- A printed expression is parsed, and compiles to the same digest, if its leaves can be read, its
disjunctions fit, and what its digest binds is kept; and only then if digests tell what was hashed
for the two. -/
theorem compile_toString_iff (valid : TpmHash.tryFrom sessionHashAlg = .ok alg)
    (total : crypto.Total alg) (branched : expression.Branched)
    (ok : expression.compile crypto sessionHashAlg context = .ok policy) :
    (expression.Readable context ∧ expression.Fits ∧ expression.Kept context →
      ∃ reread policy', parse hex context (expression.toString hex) = .ok reread ∧
        reread.compile crypto sessionHashAlg context = .ok policy' ∧
        policy'.digest = policy.digest) ∧
    ∀ inputs, 0 < crypto.size alg → crypto.CollisionFree alg inputs →
      expression.HashesOnly crypto inputs sessionHashAlg context →
      (∀ reread, parse hex context (expression.toString hex) = .ok reread →
        reread.HashesOnly crypto inputs sessionHashAlg context) →
      (∃ reread policy', parse hex context (expression.toString hex) = .ok reread ∧
        reread.compile crypto sessionHashAlg context = .ok policy' ∧
        policy'.digest = policy.digest) →
      expression.Readable context ∧ expression.Fits ∧ expression.Kept context := by
  constructor
  · rintro ⟨readable, fits, keeps⟩
    obtain ⟨reread, rereads⟩ := (exists_rereads_iff branched).mpr readable
    obtain ⟨policy', ok'⟩ := (exists_compile_reread_iff valid total branched rereads ok).mpr fits
    exact ⟨reread, policy', (rereads_iff_parse branched).mp rereads, ok',
      (compile_reread_digest valid branched rereads ok ok').1 keeps⟩
  · rintro inputs nonempty free hashes rehashes ⟨reread, policy', parsed, ok', same⟩
    have separates : Separates (crypto.only inputs) alg :=
      ⟨Libcrypto.collisionFree_only.mpr free, nonempty⟩
    have rereads := (rereads_iff_parse branched).mpr parsed
    obtain ⟨restricted, only, digest⟩ := hashes.restricted ok
    obtain ⟨restricted', only', digest'⟩ := (rehashes reread parsed).restricted ok'
    refine ⟨(exists_rereads_iff branched).mp ⟨reread, rereads⟩,
      (exists_compile_reread_iff valid total branched rereads ok).mp ⟨policy', ok'⟩,
      (compile_reread_digest valid branched rereads only only').2 separates ?_⟩
    rw [digest, digest', same]

end

end

/-- SHA-256 of the inputs that the printed samples hash. -/
def printedDigests : List (Bytes × Nat) :=
  let zero := toBytes 32 0
  let lockout := 0xa0cab3762662675a14347a87504584a08e1002525d91371c3289224bea3ff4af
  let owner := 0x0d84f55daf6e43ac97966e62c9bb989d3397777d25c5f749868055d65394f952
  let endorsement := 0x837197674484b3f81a90cc8d46a5d724fd52d76e06520b64f2a1da1b331469aa
  let either := 0x22c4594b0a2bfd97cde5d2407b4322deb79b452c597d085071aae34910253687
  let none := 0xe3b0c44298fc1c149afbf4c8996fb92427ae41e4649b934ca495991b7852b855
  sampleDigests ++
    [([], none),
      (zero ++ ccBytes .policySecret ++ toBytes 4 0x4000000a,
        0x3c0fe41e7b195cbef22795bbd884c6ae57a9f9292e7f74d40a3845ab142b5d63),
      (toBytes 32 0x3c0fe41e7b195cbef22795bbd884c6ae57a9f9292e7f74d40a3845ab142b5d63, lockout),
      (zero ++ ccBytes .policyOr ++ toBytes 32 either ++ toBytes 32 lockout,
        0x42be751086b2c218f3dc0f2071c96c5ff42541bf68bfc44ef5546e4c8098f06c),
      (zero ++ ccBytes .policyOr ++ toBytes 32 owner ++ toBytes 32 endorsement ++
          toBytes 32 lockout,
        0x4291194409abc0e36cd66585b8906c957ddc07bad5560600b9f6424eaceb4253),
      (toBytes 32 either ++ ccBytes .policyPcr ++ toBytes 8 0x1000b0101 ++ toBytes 32 none,
        0x3da07efd45cbe3bd81a9cc8cb4e28f80d6b0a431d6b490024e21d260b8b40489)]

def printedInputs : List Bytes := printedDigests.map Prod.fst

/-- Libcrypto, as far as the printed samples need it. -/
def printedCrypto : Libcrypto where
  size := sampleCrypto.size
  hash alg data := .ok (toBytes (sampleCrypto.size alg) ((printedDigests.lookup data).getD 0))
  length_hash ok := by
    cases ok
    exact length_toBytes ..

/-- `(secret(40000001) or secret(4000000b)) and pcr(sha256:0)`. -/
def printedAnd : TpmPolicyExpression :=
  and [sampleOr, pcr ⟨[⟨.sha256, ⟨[1], by decide⟩⟩], by decide⟩ none]

/-- `(secret(40000001) or secret(4000000b)) or secret(4000000a)`. -/
def nestedOr : TpmPolicyExpression := or [sampleOr, secret (handle (.new 0x4000000A)) none]

theorem printedCrypto_collisionFree : printedCrypto.CollisionFree .sha256 printedInputs := by
  have injective : ∀ x ∈ printedInputs, ∀ y ∈ printedInputs,
      printedCrypto.hash .sha256 x = printedCrypto.hash .sha256 y → x = y := by
    decide +kernel
  intro x memx y memy digest hx hy
  exact injective x memx y memy (hx.trans hy.symm)

theorem compile_toString_iff_sample : ∃ policy,
    printedAnd.compile printedCrypto .sha256 singlePcrContext = .ok policy ∧
      (∃ reread policy', parse .lower singlePcrContext (printedAnd.toString .lower) = .ok reread ∧
        reread.compile printedCrypto .sha256 singlePcrContext = .ok policy' ∧
        policy'.digest = policy.digest) ∧
      printedAnd.Readable singlePcrContext ∧ printedAnd.Fits ∧
        printedAnd.Kept singlePcrContext := by
  have compiles : (printedAnd.compile printedCrypto .sha256 singlePcrContext).isOk := by
    decide +kernel
  have hashes : printedAnd.HashesOnly printedCrypto printedInputs .sha256 singlePcrContext := by
    decide +kernel
  have rehashes : ∀ reread, parse .lower singlePcrContext (printedAnd.toString .lower) =
      .ok reread → reread.HashesOnly printedCrypto printedInputs .sha256 singlePcrContext := by
    have parses : parse .lower singlePcrContext (printedAnd.toString .lower) = .ok printedAnd := rfl
    intro reread parsed
    obtain rfl := Except.ok.inj (parses.symm.trans parsed)
    exact hashes
  have readable : printedAnd.Readable singlePcrContext := by
    refine ⟨⟨⟨.permanent, rfl⟩, ⟨.permanent, rfl⟩, trivial⟩, ⟨by decide, by simp, ?_⟩, trivial⟩
    have known : (pcrIndices [1]).all fun pcrIndex => pcrIndex.toNat < singlePcrContext.pcrCount :=
      by decide
    simp only [List.forall_mem_singleton]
    exact ⟨⟨.sha256, rfl⟩, ⟨_, rfl⟩, by decide, by simpa using known⟩
  have fits : printedAnd.Fits := by simp [printedAnd, sampleOr, Fits, FitsAll, widthAll, width]
  have keeps : printedAnd.Kept singlePcrContext := by
    simp [printedAnd, sampleOr, Kept, KeptUntil, KeptEach, LeadingOr, TpmsPcrSelection.Sized]
    decide
  obtain ⟨policy, ok⟩ := exists_ok_of_isOk compiles
  have branched : printedAnd.Branched := by simp [printedAnd, sampleOr, Branched, BranchedAll]
  obtain ⟨restores, needs⟩ := compile_toString_iff rfl (fun _ => ⟨_, rfl⟩) branched ok
  have restored := restores ⟨readable, fits, keeps⟩
  exact ⟨policy, ok, restored,
    needs printedInputs (by decide) printedCrypto_collisionFree hashes rehashes restored⟩

/-- A disjunction that leads another one is not kept: its parentheses are printed, but the parser
takes its branches over, and the digest is another one. -/
theorem compile_toString_fails : nestedOr.Branched ∧ ∃ policy,
    nestedOr.compile printedCrypto .sha256 sampleContext = .ok policy ∧
      ¬ ∃ reread policy', parse .lower sampleContext (nestedOr.toString .lower) = .ok reread ∧
        reread.compile printedCrypto .sha256 sampleContext = .ok policy' ∧
        policy'.digest = policy.digest := by
  have parses : parse .lower sampleContext (nestedOr.toString .lower) = .ok
      (or [secret (handle (.new 0x40000001)) none, secret (handle (.new 0x4000000B)) none,
        secret (handle (.new 0x4000000A)) none]) := rfl
  have compiles : (nestedOr.compile printedCrypto .sha256 sampleContext).isOk := by
    decide +kernel
  have differ : ((or [secret (handle (.new 0x40000001)) none,
      secret (handle (.new 0x4000000B)) none, secret (handle (.new 0x4000000A)) none]).compile
        printedCrypto .sha256 sampleContext).map TpmCompiledPolicy.digest ≠
      (nestedOr.compile printedCrypto .sha256 sampleContext).map TpmCompiledPolicy.digest := by
    decide +kernel
  obtain ⟨policy, ok⟩ := exists_ok_of_isOk compiles
  refine ⟨by simp [nestedOr, sampleOr, Branched, BranchedAll], policy, ok, ?_⟩
  rintro ⟨reread, policy', parsed, ok', same⟩
  obtain rfl := Except.ok.inj (parses.symm.trans parsed)
  apply differ
  rw [ok, ok']
  exact congrArg Except.ok same

end TpmPolicyExpression
end Tpm2
