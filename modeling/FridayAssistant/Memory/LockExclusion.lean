import FridayAssistant.Memory.FileLock
/-!
# When `FileLock` excludes

Every process fits the lock directory (`Fits`): who has made it and not yet written `owner.json`
sees an empty one, and a live holder sees its own file in it. `Inv.update` is the one step lemma: a
process that changes the directory must be alone with it.
-/
namespace Friday.Memory
open Transition

variable {n : Nat} {ttl : Time}

/-- The process has made the directory and not yet written its file. -/
def Pc.isBuilding : Pc → Bool
  | .stamp | .write _ => true
  | _ => false

/-- The process agrees with the directory, the clock and the tokens drawn so far. -/
structure Fits (ttl clock : Time) (path : Option (Option OwnerFile)) (issued : List Nat)
    (proc : Proc) : Prop where
  building : proc.alive = true → proc.pc.isBuilding = true → path = some none
  holding : proc.alive = true → proc.holding = true → ∃ file, proc.file = some file ∧
    path = some (some file)
  stale : ∀ left seen, proc.pc = .rename left seen → ttl < clock - seen.createdAt
  writing : ∀ file, proc.pc = .write file → proc.file = some file
  released : proc.pc = .releaseRead ∨ proc.pc = .delete → proc.holding = false
  issued : ∀ file, proc.file = some file → file.token ∈ issued

structure Inv (ttl : Time) (s : LockState n) : Prop where
  fits : ∀ p, Fits ttl s.clock s.path s.issued (s.procs p)
  builder : ∀ p q, (s.procs p).alive = true → (s.procs p).pc.isBuilding = true →
    (s.procs q).alive = true → (s.procs q).pc.isBuilding = true → p = q
  tokens : ∀ p q f g, (s.procs p).file = some f → (s.procs q).file = some g → f.token = g.token →
    p = q
  young : Young ttl s

/-- No other process is building or holding. -/
def Alone (s : LockState n) (p : Fin n) : Prop :=
  ∀ q, q ≠ p → (s.procs q).alive = true → (s.procs q).pc.isBuilding = false ∧
    (s.procs q).holding = false

variable {clock : Time} {proc : Proc} {pc : Pc} {issued : List Nat} {s s' : LockState n} {p : Fin n}
  {a : LockAction n} {file : OwnerFile}

theorem Fits.path {path path' : Option (Option OwnerFile)} {issued' : List Nat}
    (h : Fits ttl clock path issued proc) (hissued : ∀ k ∈ issued, k ∈ issued')
    (hpath : path' = path ∨ (proc.alive = true → proc.pc.isBuilding = false ∧ proc.holding = false)) :
    Fits ttl clock path' issued' proc := by
  refine ⟨fun halive hb => ?_, fun halive hh => ?_, h.stale, h.writing, h.released,
    fun f hf => hissued _ (h.issued f hf)⟩
  · rcases hpath with rfl | hpath
    · exact h.building halive hb
    · rw [(hpath halive).1] at hb
      cases hb
  · rcases hpath with rfl | hpath
    · exact h.holding halive hh
    · rw [(hpath halive).2] at hh
      cases hh

variable {path : Option (Option OwnerFile)}

theorem Fits.not_building (h : Fits ttl clock path issued proc) (halive : proc.alive = true)
    (hpath : path ≠ some none) : proc.pc.isBuilding = false :=
  Bool.eq_false_iff.2 fun hb => hpath (h.building halive hb)

theorem Fits.not_holding (h : Fits ttl clock path issued proc) (halive : proc.alive = true)
    (hpath : ∀ file, path ≠ some (some file)) : proc.holding = false := by
  refine Bool.eq_false_iff.2 fun hh => ?_
  obtain ⟨file, -, hfile⟩ := h.holding halive hh
  exact hpath file hfile

/-- What no two processes share is still so after one of them changed, if the others have nothing
in common with it. -/
theorem unique_of_update {R : Proc → Proc → Prop} (symm : ∀ x y, R x y → R y x)
    (hself : s'.procs p = proc) (hother : ∀ q, q ≠ p → s'.procs q = s.procs q)
    (hold : ∀ q r, R (s.procs q) (s.procs r) → q = r) (hnew : ∀ r, r ≠ p → ¬ R proc (s.procs r))
    (q r : Fin n) (hR : R (s'.procs q) (s'.procs r)) : q = r := by
  by_cases hq : q = p <;> by_cases hr : r = p
  · rw [hq, hr]
  · rw [hq, hself, hother r hr] at hR
    exact absurd hR (hnew r hr)
  · rw [hr, hself, hother q hq] at hR
    exact absurd (symm _ _ hR) (hnew q hq)
  · rw [hother q hq, hother r hr] at hR
    exact hold q r hR

/-- One process moves, and changes the directory only when it is alone with it. -/
theorem Inv.update (h : Inv ttl s) (hclock : s'.clock = s.clock)
    (hprocs : s'.procs = fun q => if q = p then proc else s.procs q) (hissued : ∀ k ∈ s.issued, k ∈ s'.issued)
    (hpath : s'.path = s.path ∨ Alone s p) (hfits : Fits ttl s'.clock s'.path s'.issued proc)
    (hbuilder : proc.alive = true → proc.pc.isBuilding = true →
      ((s.procs p).alive = true ∧ (s.procs p).pc.isBuilding = true) ∨ Alone s p)
    (hfile : ∀ file, proc.file = some file → (s.procs p).file = some file ∨ file.token ∉ s.issued)
    (hyoung : Young ttl s') : Inv ttl s' := by
  have hself : s'.procs p = proc := by rw [hprocs]; exact if_pos rfl
  have hother : ∀ q, q ≠ p → s'.procs q = s.procs q := fun q hq => by rw [hprocs]; exact if_neg hq
  refine ⟨fun q => ?_, fun q r hqa hqb hra hrb => ?_, fun q r f g hf hg htoken => ?_, hyoung⟩
  · by_cases hq : q = p
    · rw [hq, hself]
      exact hfits
    · rw [hother q hq, hclock]
      exact (h.fits q).path hissued (hpath.imp_right fun halone => halone q hq)
  · -- a second builder would contradict that the first one was alone
    let R := fun x y : Proc => (x.alive = true ∧ x.pc.isBuilding = true) ∧ y.alive = true ∧ y.pc.isBuilding = true
    refine unique_of_update (R := R) (fun _ _ => And.symm) hself hother
      (fun q r hR => h.builder q r hR.1.1 hR.1.2 hR.2.1 hR.2.2) ?_ q r ⟨⟨hqa, hqb⟩, hra, hrb⟩
    rintro r hr ⟨⟨hpa, hpb⟩, hra, hrb⟩
    rcases hbuilder hpa hpb with ⟨hpa, hpb⟩ | halone
    · exact hr (h.builder r p hra hrb hpa hpb)
    · rw [(halone r hr hra).1] at hrb
      cases hrb
  · let R := fun x y : Proc => ∃ f g, x.file = some f ∧ y.file = some g ∧ f.token = g.token
    refine unique_of_update (R := R) (fun _ _ ⟨f, g, hf, hg, ht⟩ => ⟨g, f, hg, hf, ht.symm⟩) hself
      hother (fun q r ⟨f, g, hf, hg, ht⟩ => h.tokens q r f g hf hg ht) ?_ q r ⟨f, g, hf, hg, htoken⟩
    rintro r hr ⟨f, g, hf, hg, htoken⟩
    rcases hfile f hf with hf | hnew
    · exact hr (h.tokens r p g f hg hf htoken.symm)
    · exact hnew (htoken ▸ (h.fits r).issued g hg)

/-! ## Alone with the directory -/

theorem Inv.alone_of_none (h : Inv ttl s) (hpath : s.path = none) : Alone s p := fun q _ halive =>
  ⟨(h.fits q).not_building halive (by simp [hpath]),
    (h.fits q).not_holding halive (by simp [hpath])⟩

theorem Inv.alone_of_building (h : Inv ttl s) (halive : (s.procs p).alive = true)
    (hbuilding : (s.procs p).pc.isBuilding = true) : Alone s p := by
  have hpath := (h.fits p).building halive hbuilding
  intro q hq hqa
  refine ⟨?_, (h.fits q).not_holding hqa (by simp [hpath])⟩
  by_contra hb
  exact hq (h.builder q p hqa (by simpa using hb) halive hbuilding)

/-- The live holder wrote the file in the directory. -/
theorem Inv.file_of_holds (h : Inv ttl s) {q : Fin n} (hq : s.Holds q)
    (hpath : s.path = some (some file)) : (s.procs q).file = some file := by
  obtain ⟨f, hf, hf'⟩ := (h.fits q).holding hq.1 hq.2
  rw [hf, Option.some.inj (Option.some.inj (hf'.symm.trans hpath))]

theorem Inv.alone_of_file (h : Inv ttl s) (hpath : s.path = some (some file))
    (hnot : ∀ q, q ≠ p → ¬ s.Holds q) : Alone s p := by
  intro q hq halive
  refine ⟨(h.fits q).not_building halive (by simp [hpath]), ?_⟩
  by_contra hh
  exact hnot q hq ⟨halive, by simpa using hh⟩

/-- Nobody who is alive holds a stale lock. -/
theorem Inv.not_holds_of_stale (h : Inv ttl s) {seen : OwnerFile}
    (hpath : s.path = some (some seen)) (hstale : ttl < s.clock - seen.createdAt) (q : Fin n) :
    ¬ s.Holds q := by
  intro hq
  have hyoung := h.young q hq
  rw [h.file_of_holds hq hpath] at hyoung
  exact absurd (of_decide_eq_true hyoung) (not_le.2 hstale)

/-- Nobody else holds a lock with the process's own token. -/
theorem Inv.not_holds_of_own (h : Inv ttl s) {own : OwnerFile} (hpath : s.path = some (some file))
    (hown : (s.procs p).file = some own) (htoken : own.token = file.token) (q : Fin n)
    (hq : q ≠ p) : ¬ s.Holds q :=
  fun hholds => hq (h.tokens q p file own (h.file_of_holds hholds hpath) hown htoken.symm)

/-! ## Steps -/

theorem Fits.goto (h : Fits ttl clock path issued proc) (building : pc.isBuilding = true →
    path = some none) (stale : ∀ left seen, pc = .rename left seen → ttl < clock - seen.createdAt)
    (writing : ∀ file, pc = .write file → proc.file = some file)
    (released : pc = .releaseRead ∨ pc = .delete → proc.holding = false) :
    Fits ttl clock path issued { proc with pc := pc } :=
  ⟨fun _ hb => building hb, h.holding, stale, writing, released, h.issued⟩

/-- The rounds of `acquire` and its failing returns. -/
def Pc.isQuiet : Pc → Bool
  | .idle | .mkdir _ | .read _ | .judge _ _ => true
  | _ => false

theorem Fits.quiet (h : Fits ttl clock path issued proc) (hpc : pc.isQuiet = true) :
    Fits ttl clock path issued { proc with pc := pc } := by
  refine h.goto (fun hb => ?_) (fun left seen hr => ?_) (fun file hw => ?_) fun hr => ?_
  · cases pc <;> simp_all [Pc.isBuilding, Pc.isQuiet]
  · rw [hr] at hpc
    cases hpc
  · rw [hw] at hpc
    cases hpc
  · rcases hr with hr | hr <;> rw [hr] at hpc <;> cases hpc

/-- A process moves on and leaves the directory. -/
theorem Inv.goto (h : Inv ttl s) (hpc : pc.isBuilding = false)
    (hfits : Fits ttl s.clock s.path s.issued { s.procs p with pc := pc })
    (hyoung : Young ttl (s.set p { s.procs p with pc := pc })) :
    Inv ttl (s.set p { s.procs p with pc := pc }) :=
  h.update rfl rfl (fun _ hk => hk) (.inl rfl) hfits
    (fun _ hb => by rw [show pc.isBuilding = true from hb] at hpc; cases hpc)
    (fun _ hf => .inl hf) hyoung

theorem Inv.quiet (h : Inv ttl s) (hpc : pc.isQuiet = true)
    (hyoung : Young ttl (s.set p { s.procs p with pc := pc })) :
    Inv ttl (s.set p { s.procs p with pc := pc }) :=
  h.goto (by cases pc <;> first | rfl | cases hpc) ((h.fits p).quiet hpc) hyoung

/-- A process that is alone makes, or removes, the directory. -/
theorem Inv.remove (h : Inv ttl s) (halone : Alone s p) (hpc : pc.isQuiet = true)
    (hidle : (s.procs p).alive = true → (s.procs p).holding = false)
    (hyoung : Young ttl ({ s with path := none }.set p { s.procs p with pc := pc })) :
    Inv ttl ({ s with path := none }.set p { s.procs p with pc := pc }) := by
  have hbuilding : pc.isBuilding = false := by cases pc <;> first | rfl | cases hpc
  refine h.update rfl rfl (fun _ hk => hk) (.inr halone) ?_ (fun _ _ => .inr halone)
    (fun _ hf => .inl hf) hyoung
  exact ((h.fits p).quiet hpc).path (fun _ hk => hk) (.inr fun ha => ⟨hbuilding, hidle ha⟩)

theorem Inv.go {token : Nat} (h : Inv ttl s) (halive : (s.procs p).alive = true)
    (hgo : go ttl s p token = some s') (hfresh : token ∉ s.issued)
    (hinspected : removesInspected s (.step p (.go token)) = true) (hyoung : Young ttl s') :
    Inv ttl s' := by
  unfold Memory.go at hgo
  dsimp only at hgo
  split at hgo
  · cases hgo
  · cases hgo
    exact h.quiet rfl hyoung
  · -- `mkdir`
    split at hgo
    · next hpath =>
      cases hgo
      have halone : Alone s p := h.alone_of_none hpath
      have hnot := (h.fits p).not_holding halive (by simp [hpath])
      refine h.update rfl rfl (fun _ hk => hk) (.inr halone) ?_ (fun _ _ => .inr halone) (fun _ hf => .inl hf) hyoung
      refine ⟨fun _ _ => rfl, fun _ hh => ?_, nofun, nofun, fun hr => ?_, (h.fits p).issued⟩
      · cases hnot.symm.trans hh
      · rcases hr with hr | hr <;> cases hr
    · cases hgo
      exact h.quiet rfl hyoung
  · split at hgo
    · cases hgo
      exact h.quiet rfl hyoung
    · cases hgo
      exact h.quiet rfl hyoung
  · -- the clock has been read
    next left seen hpc =>
    cases hgo
    by_cases hstale : ttl < s.clock - seen.createdAt
    · rw [if_pos hstale] at hyoung ⊢
      refine h.goto rfl ((h.fits p).goto nofun (fun l x hr => ?_) nofun fun hr => ?_) hyoung
      · cases hr
        exact hstale
      · rcases hr with hr | hr <;> cases hr
    · rw [if_neg hstale] at hyoung ⊢
      exact h.quiet rfl hyoung
  · -- the rename: the directory is the stale one that was read
    next left seen hpc =>
    split at hgo
    · cases hgo
      exact h.quiet rfl hyoung
    · next d hpath =>
      cases hgo
      have hseen : s.path = some (some seen) := by
        simp only [removesInspected, hpc, hpath, Option.all_some, decide_eq_true_eq] at hinspected
        rw [hpath, hinspected]
      have hnobody := h.not_holds_of_stale hseen ((h.fits p).stale left seen hpc)
      refine h.remove (h.alone_of_file hseen fun q _ => hnobody q) rfl (fun ha => ?_) hyoung
      exact Bool.eq_false_iff.2 fun hh => hnobody p ⟨ha, hh⟩
  · -- the token is drawn
    next hpc =>
    cases hgo
    have hpath := (h.fits p).building halive (by rw [hpc]; rfl)
    have hnot := (h.fits p).not_holding halive (by simp [hpath])
    refine h.update rfl rfl (fun _ hk => List.mem_cons_of_mem _ hk) (.inl rfl) ?_
      (fun _ _ => .inl ⟨halive, by rw [hpc]; rfl⟩) (fun file hf => ?_) hyoung
    · refine ⟨fun _ _ => hpath, fun _ hh => ?_, nofun, fun file hw => ?_, fun hr => ?_, fun file hf => ?_⟩
      · cases hnot.symm.trans hh
      · cases hw
        rfl
      · rcases hr with hr | hr <;> cases hr
      · cases hf
        exact List.mem_cons_self
    · cases hf
      exact .inr hfresh
  · -- `owner.json` is written
    next file hpc =>
    have hbuilding : (s.procs p).pc.isBuilding = true := by rw [hpc]; rfl
    have hpath := (h.fits p).building halive hbuilding
    rw [hpath] at hgo
    cases hgo
    refine h.update rfl rfl (fun _ hk => hk) (.inr (h.alone_of_building halive hbuilding)) ?_ nofun
      (fun _ hf => .inl hf) hyoung
    refine ⟨nofun, fun _ _ => ⟨file, (h.fits p).writing file hpc, rfl⟩, nofun, nofun, fun hr => ?_, (h.fits p).issued⟩
    rcases hr with hr | hr <;> cases hr
  · -- `release` reads
    next hpc =>
    have hreleased := (h.fits p).released (.inl hpc)
    split at hgo
    · cases hgo
      exact h.goto rfl ((h.fits p).goto nofun nofun nofun fun _ => hreleased) hyoung
    · cases hgo
      exact h.quiet rfl hyoung
  · -- `release` deletes
    next hpc =>
    cases hgo
    have hreleased := (h.fits p).released (.inr hpc)
    refine h.remove ?_ rfl (fun _ => hreleased) hyoung
    cases hpath : s.path with
    | none => exact h.alone_of_none hpath
    | some d =>
      simp only [removesInspected, hpc, hpath, Option.all_some, Option.any_eq_true, decide_eq_true_eq] at hinspected
      obtain ⟨file, rfl, own, hown, htoken⟩ := hinspected
      exact h.alone_of_file hpath (h.not_holds_of_own hpath hown htoken)

theorem Inv.step (h : Inv ttl s) (hstep : lockStep ttl s a = some s')
    (hfresh : isFreshToken s a = true) (hinspected : removesInspected s a = true)
    (hyoung : Young ttl s') : Inv ttl s' := by
  cases a with
  | tick d =>
    cases hstep
    refine ⟨fun p => ?_, h.builder, h.tokens, hyoung⟩
    have hp := h.fits p
    refine ⟨hp.building, hp.holding, fun left seen hpc => ?_, hp.writing, hp.released, hp.issued⟩
    have hstale := hp.stale left seen hpc
    exact Int.lt_of_lt_of_le hstale (Int.sub_le_sub_right (Int.le_add_of_nonneg_right (Int.natCast_nonneg d)) _)
  | step p op =>
    unfold lockStep at hstep
    dsimp only at hstep
    split at hstep
    · next halive =>
      cases op with
      | acquire =>
        dsimp only at hstep
        split at hstep
        · cases hstep
          exact h.quiet rfl hyoung
        · cases hstep
      | release =>
        dsimp only at hstep
        split at hstep
        · cases hstep
          refine h.update rfl rfl (fun _ hk => hk) (.inl rfl) ?_ nofun (fun _ hf => .inl hf) hyoung
          exact ⟨nofun, nofun, nofun, nofun, fun _ => rfl, (h.fits p).issued⟩
        · cases hstep
      | go token =>
        exact h.go halive hstep (by simpa [isFreshToken] using hfresh) hinspected hyoung
      | crash =>
        cases hstep
        refine h.update rfl rfl (fun _ hk => hk) (.inl rfl) ?_ nofun (fun _ hf => .inl hf) hyoung
        exact ⟨nofun, nofun, (h.fits p).stale, (h.fits p).writing, (h.fits p).released, (h.fits p).issued⟩
    · cases hstep

theorem Inv.initial : Inv ttl (LockState.initial n) where
  fits _ := ⟨nofun, nofun, nofun, nofun, fun _ => rfl, nofun⟩
  builder _ _ _ hp := by cases hp
  tokens _ _ _ _ hp := by cases hp
  young _ hp := by cases hp.2

theorem inv_of_reachable (h : ((lockSystem ttl n).restrict (Orderly ttl)).Reachable s) :
    Inv ttl s := by
  refine h.invariant (Inv ttl) (fun s hs => ?_) fun s a s' _ hs hn => ?_
  · obtain rfl : s = .initial n := hs
    exact .initial
  · obtain ⟨⟨hinspected, hyoung⟩, hstep, hfresh, -⟩ := hn
    rw [hstep] at hyoung
    exact hs.step hstep hfresh hinspected (of_decide_eq_true hyoung)

/-- Only the rename and the delete remove the directory. -/
theorem removes_of_step (hstep : lockStep ttl s a = some s')
    (hsome : s.path ≠ none) (hnone : s'.path = none) :
    ∃ p token, a = .step p (.go token) ∧ ((∃ left seen, (s.procs p).pc = .rename left seen) ∨ (s.procs p).pc = .delete) := by
  cases a with
  | tick d =>
    cases hstep
    exact absurd hnone hsome
  | step p op =>
    unfold lockStep at hstep
    dsimp only at hstep
    split at hstep
    · cases op with
      | go token =>
        refine ⟨p, token, rfl, ?_⟩
        dsimp only at hstep
        unfold go at hstep
        dsimp only at hstep
        cases hpc : (s.procs p).pc with
        | rename left seen => exact .inl ⟨left, seen, rfl⟩
        | delete => exact .inr rfl
        | idle => rw [hpc] at hstep; cases hstep
        | stamp | judge left seen =>
          rw [hpc] at hstep
          cases hstep
          exact absurd hnone hsome
        | mkdir left =>
          rw [hpc] at hstep
          cases left with
          | zero =>
            cases hstep
            exact absurd hnone hsome
          | succ left =>
            dsimp only at hstep
            split at hstep <;> cases hstep
            · cases hnone
            · exact absurd hnone hsome
        | read left | releaseRead =>
          rw [hpc] at hstep
          dsimp only at hstep
          split at hstep <;> cases hstep <;> exact absurd hnone hsome
        | write file =>
          rw [hpc] at hstep
          dsimp only at hstep
          split at hstep <;> cases hstep
          · exact absurd hnone hsome
          · cases hnone
      | acquire | release =>
        dsimp only at hstep
        split at hstep
        · cases hstep
          exact absurd hnone hsome
        · cases hstep
      | crash =>
        cases hstep
        exact absurd hnone hsome
    · cases hstep

/-- When every directory that is renamed or deleted is the one that was inspected, and no live
holder's `created_at` is older than the time to live, no two live processes hold the lock, and no
step removes the directory while a live process holds it. -/
theorem file_lock_excludes (h : ((lockSystem ttl n).restrict (Orderly ttl)).Reachable s) :
    (∀ p q, s.Holds p → s.Holds q → p = q) ∧
    ∀ a s', ((lockSystem ttl n).restrict (Orderly ttl)).next s a s' →
      s.path ≠ none → s'.path = none → ∀ p, ¬ s.Holds p := by
  have hinv := inv_of_reachable h
  refine ⟨fun p q hp hq => ?_, fun a s' hn hsome hnone p hp => ?_⟩
  · obtain ⟨f, hf, hpath⟩ := (hinv.fits p).holding hp.1 hp.2
    exact hinv.tokens p q f f hf (hinv.file_of_holds hq hpath) rfl
  · obtain ⟨⟨hinspected, -⟩, hstep, -⟩ := hn
    obtain ⟨f, hf, hpath⟩ := (hinv.fits p).holding hp.1 hp.2
    obtain ⟨q, token, rfl, ⟨left, seen, hpc⟩ | hpc⟩ := removes_of_step hstep hsome hnone
    · simp only [removesInspected, hpc, hpath, Option.all_some, decide_eq_true_eq, Option.some.injEq] at hinspected
      subst hinspected
      exact hinv.not_holds_of_stale hpath ((hinv.fits q).stale left f hpc) p hp
    · simp only [removesInspected, hpc, hpath, Option.all_some, Option.any_some, Option.any_eq_true,
        decide_eq_true_eq] at hinspected
      obtain ⟨own, hown, htoken⟩ := hinspected
      by_cases hpq : p = q
      · have hreleased := (hinv.fits q).released (.inr hpc)
        rw [← hpq, hp.2] at hreleased
        cases hreleased
      · exact hinv.not_holds_of_own hpath hown htoken p hpq hp

/-! ## Sample runs -/

/-- The first process acquires the lock and crashes; ten later the two others find it stale. -/
def staleActions : List (LockAction 3) :=
  [.step 0 .acquire, .step 0 (.go 1), .step 0 (.go 1), .step 0 (.go 2), .step 0 .crash, .tick 10,
    .step 1 .acquire, .step 1 (.go 3), .step 1 (.go 3), .step 1 (.go 3),
    .step 2 .acquire, .step 2 (.go 3), .step 2 (.go 3), .step 2 (.go 3)]

/-- The second process takes over: rename, `mkdir`, token, `owner.json`. -/
def takeOver (p : Fin 3) (token : Nat) : List (LockAction 3) :=
  [.step p (.go token), .step p (.go token), .step p (.go token), .step p (.go (token + 1))]

def tookOver : LockState 3 := System.run (lockStep 5) (.initial 3) (staleActions ++ takeOver 1 3)

/-- The second process takes the stale lock over, and nobody else holds it. -/
theorem file_lock_excludes_sample : ∃ s : LockState 3,
    ((lockSystem 5 3).restrict (Orderly 5)).Reachable s ∧ s.Holds 1 ∧ ¬ s.Holds 2 := by
  have hlegal : System.Legal (lockStep 5) (fun s a => Assumed 5 s a ∧ Orderly 5 s a) (.initial 3)
      (staleActions ++ takeOver 1 3) ∧ tookOver.Holds 1 := by decide +kernel
  obtain ⟨hlegal, hholds⟩ := hlegal
  have hinit : ((lockSystem 5 3).restrict (Orderly 5)).init (.initial 3) := rfl
  have hreachable := System.Reachable.steps (.of_init hinit) (.run_restrict hlegal)
  refine ⟨_, hreachable, hholds, fun h => ?_⟩
  exact absurd ((file_lock_excludes hreachable).1 1 2 hholds h) (by decide)

/-- The third process renames the second one's directory and holds the lock beside it. -/
theorem stale_lock_taken_twice : ∃ s s' s'' : LockState 3, (lockSystem 5 3).Reachable s ∧
    s.Holds 1 ∧ (lockSystem 5 3).next s (.step 2 (.go 5)) s' ∧ s.path ≠ none ∧ s'.path = none ∧
    (lockSystem 5 3).Steps s' s'' ∧ s''.Holds 1 ∧ s''.Holds 2 := by
  have hlegal : System.Legal (lockStep 5) (Assumed 5) (.initial 3) (staleActions ++ takeOver 1 3) ∧
      tookOver.Holds 1 ∧ tookOver.path ≠ none ∧ Assumed 5 tookOver (.step 2 (.go 5)) ∧
      (lockStep 5 tookOver (.step 2 (.go 5))).any (fun s' => decide (s'.path = none) &&
        decide (System.Legal (lockStep 5) (Assumed 5) s' ((takeOver 2 5).drop 1)) &&
        decide ((System.run (lockStep 5) s' ((takeOver 2 5).drop 1)).Holds 1) &&
        decide ((System.run (lockStep 5) s' ((takeOver 2 5).drop 1)).Holds 2)) = true := by
    decide +kernel
  obtain ⟨hlegal, hholds, hpath, hassumed, hany⟩ := hlegal
  have hinit : (lockSystem 5 3).init (.initial 3) := rfl
  have hreachable := System.Reachable.steps (.of_init hinit) (.run hlegal)
  obtain ⟨s', hs', hany⟩ := (Option.any_eq_true _ _).1 hany
  simp only [Bool.and_eq_true, decide_eq_true_eq] at hany
  obtain ⟨⟨⟨hnone, hlegal'⟩, hfirst⟩, hsecond⟩ := hany
  exact ⟨tookOver, s', _, hreachable, hholds, ⟨hs', hassumed⟩, hpath, hnone, .run hlegal',
    hfirst, hsecond⟩

end Friday.Memory
