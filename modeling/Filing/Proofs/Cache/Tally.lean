import Filing.Proofs.Cache.Leaders
import Mathlib.Algebra.BigOperators.Group.Finset.Piecewise
import Mathlib.Data.Finset.Dedup

/-!
# What the counters add up to

A caller moves a counter only when it looks up its key for the first time, and then one counter by
one, if it moves any. So hits and waits together count callers, each at most once, and a caller that
neither found a result nor waited has opened a flight. Where nothing is forgotten only such callers
open flights, and there are as many flights as keys.
-/

namespace Filing.SingleFlight

variable {ρ α : Type} {svc : Service ρ α} {s t : System ρ α} {a : Action ρ}

/-! ## New callers -/

/-- The caller that takes a step, if it is taken by one. -/
def Action.caller? : Action ρ → Option Nat
  | .look i => some i
  | .wake i => some i
  | .timeOut i => some i
  | .deliver i => some i
  | .cancel i => some i
  | _ => none

/-- By how much a counter is moved, in the steps of a run that are taken by one caller. -/
def Service.added (svc : Service ρ α) (counter : Cache α → Nat) (i : Nat) :
    System ρ α → List (Action ρ) → Nat
  | _, [] => 0
  | s, a :: as =>
    match svc.step s a with
    | none => 0
    | some t =>
      (if a.caller? = some i then counter t.cache - counter s.cache else 0) +
        svc.added counter i t as

theorem added_cons (h : Step svc s a t) (counter : Cache α → Nat) (i : Nat)
    (as : List (Action ρ)) : svc.added counter i s (a :: as) =
      (if a.caller? = some i then counter t.cache - counter s.cache else 0) +
        svc.added counter i t as := by
  rw [Service.added, step_eq_some_iff.2 h]

/-- The caller has not looked up its key yet. -/
def Caller.isNew (c : Caller ρ α) : Bool :=
  match c.stage with
  | .looking false => true
  | _ => false

/-- The caller with this position has not looked up its key yet, or is still to come. -/
def System.awaits (s : System ρ α) (i : Nat) : Bool := s.callers[i]?.all (·.isNew)

theorem isNew_notify (f : Nat) (c : Caller ρ α) : (c.notify f).isNew = c.isNew := by
  obtain ⟨mode, request, stage⟩ := c
  unfold Caller.notify
  split
  · next g b hmode hstage =>
    dsimp only at hstage
    subst hstage
    split <;> rfl
  · rfl

theorem isNew_iff {c : Caller ρ α} : c.isNew = true ↔ c.stage = .looking false := by
  obtain ⟨mode, request, stage⟩ := c
  cases stage with
  | looking waited => cases waited <;> simp [Caller.isNew]
  | _ => simp [Caller.isNew]

theorem awaits_setStage {i : Nat} {c : Caller ρ α} (hc : s.callers[i]? = some c) (stage : Stage α)
    (hnew : ({ c with stage } : Caller ρ α).isNew = false) (j : Nat) :
    (s.setStage i stage).awaits j = if j = i then false else s.awaits j := by
  unfold System.awaits System.setStage
  rw [List.getElem?_modify]
  by_cases hj : j = i
  · subst hj
    simp [hc, hnew]
  · simp [hj, Ne.symm hj]

theorem awaits_look {i : Nat} {c : Caller ρ α} (hc : s.callers[i]? = some c) (waited : Bool)
    (j : Nat) : (svc.look s i c.request waited).awaits j = if j = i then false else s.awaits j := by
  cases hfind : s.cache.entries.find? (svc.key c.request) with
  | none =>
    rw [look_of_vacant hfind]
    exact awaits_setStage (s := svc.openFlight s i c.request) hc _ rfl j
  | some entry =>
    cases entry with
    | ready result => exact look_of_ready hfind ▸ awaits_setStage hc (.returned result) rfl j
    | pending f => exact look_of_pending hfind ▸ awaits_setStage hc (.waiting f false) rfl j

/-- Who has looked once is not new again. -/
theorem Step.awaits_of_awaits (h : Step svc s a t) {i : Nat} (ht : t.awaits i = true) :
    s.awaits i = true := by
  cases h with
  | call mode request =>
    unfold System.awaits at ht
    rw [List.getElem?_append] at ht
    split at ht
    · exact ht
    · next hlt =>
      unfold System.awaits
      rw [List.getElem?_eq_none (Nat.not_lt.1 hlt)]
      rfl
  | look hc hstage =>
    rw [awaits_look hc] at ht
    split at ht
    · exact absurd ht Bool.false_ne_true
    · exact ht
  | wake hc | timeOut hc | deliver hc | cancel hc =>
    rw [awaits_setStage hc _ rfl] at ht
    split at ht
    · exact absurd ht Bool.false_ne_true
    · exact ht
  | @land f fl result =>
    have hall : (s.callers.map (·.notify f))[i]?.all (·.isNew) = true := ht
    unfold System.awaits
    rw [List.getElem?_map] at hall
    cases hc : s.callers[i]? with
    | none => rfl
    | some c =>
      rw [hc] at hall
      exact (isNew_notify f c).symm.trans hall
  | takeOff | commit | invalidate | clear => exact ht

theorem Step.awaits_le (h : Step svc s a t) (i : Nat) :
    (if t.awaits i then 1 else 0) ≤ if s.awaits i then 1 else 0 := by
  cases ht : t.awaits i with
  | false => exact Nat.zero_le _
  | true => rw [h.awaits_of_awaits ht]

/-- A counter is moved by a new caller only, by one, and no other counter with it. -/
theorem Step.counters (h : Step svc s a t) :
    t.cache.hits = s.cache.hits ∧ t.cache.coalesced = s.cache.coalesced ∨
      ∃ i < s.callers.length, a.caller? = some i ∧ s.awaits i = true ∧ t.awaits i = false ∧
        (t.cache.hits = s.cache.hits + 1 ∧ t.cache.coalesced = s.cache.coalesced ∨
          t.cache.hits = s.cache.hits ∧ t.cache.coalesced = s.cache.coalesced + 1) := by
  cases h with
  | @look i c waited hc hstage =>
    have hlt := (List.getElem?_eq_some_iff.1 hc).1
    have hlooked : (svc.look s i c.request waited).awaits i = false := by
      rw [awaits_look hc, if_pos rfl]
    have hnew : waited = false → s.awaits i = true := by
      rintro rfl
      unfold System.awaits
      rw [hc]
      exact isNew_iff.2 hstage
    cases hfind : s.cache.entries.find? (svc.key c.request) with
    | none =>
      rw [look_of_vacant hfind]
      exact .inl ⟨rfl, rfl⟩
    | some entry =>
      cases waited with
      | true =>
        cases entry with
        | ready result => rw [look_of_ready hfind]; exact .inl ⟨rfl, rfl⟩
        | pending f => rw [look_of_pending hfind]; exact .inl ⟨rfl, rfl⟩
      | false =>
        refine .inr ⟨i, hlt, rfl, hnew rfl, hlooked, ?_⟩
        cases entry with
        | ready result => rw [look_of_ready hfind]; exact .inl ⟨rfl, rfl⟩
        | pending f => rw [look_of_pending hfind]; exact .inr ⟨rfl, rfl⟩
  | invalidate =>
    unfold Cache.invalidate
    split <;> exact .inl ⟨rfl, rfl⟩
  | _ => exact .inl ⟨rfl, rfl⟩

theorem Step.hits (h : Step svc s a t) : t.cache.hits = s.cache.hits ∨
    ∃ i < s.callers.length, a.caller? = some i ∧ s.cache.hits ≤ t.cache.hits := by
  rcases h.counters with ⟨heq, -⟩ | ⟨i, hi, ha, -, -, ⟨heq, -⟩ | ⟨heq, -⟩⟩
  · exact .inl heq
  · exact .inr ⟨i, hi, ha, heq ▸ Nat.le_succ _⟩
  · exact .inl heq

theorem Step.coalesced (h : Step svc s a t) : t.cache.coalesced = s.cache.coalesced ∨
    ∃ i < s.callers.length, a.caller? = some i ∧ s.cache.coalesced ≤ t.cache.coalesced := by
  rcases h.counters with ⟨-, heq⟩ | ⟨i, hi, ha, -, -, ⟨-, heq⟩ | ⟨-, heq⟩⟩
  · exact .inl heq
  · exact .inl heq
  · exact .inr ⟨i, hi, ha, heq ▸ Nat.le_succ _⟩

/-! ## Counting per caller -/

theorem length_callers_look (s : System ρ α) (i : Nat) (request : ρ) (waited : Bool) :
    (svc.look s i request waited).callers.length = s.callers.length := by
  unfold Service.look
  split <;> exact List.length_modify ..

theorem Step.length_le (h : Step svc s a t) : s.callers.length ≤ t.callers.length := by
  cases h with
  | call => exact List.length_append ▸ Nat.le_add_right _ _
  | look => exact (length_callers_look s _ _ _).ge
  | wake | timeOut | deliver | cancel => exact (List.length_modify ..).ge
  | land => exact (List.length_map ..).ge
  | takeOff | commit | invalidate | clear => exact le_rfl

theorem length_le_of_run {as : List (Action ρ)} (hrun : svc.run s as = some t) :
    s.callers.length ≤ t.callers.length :=
  run_induction (p := (s.callers.length ≤ ·.callers.length)) hrun le_rfl
    fun _ _ _ _ hle h => hle.trans h.length_le

/-- In a run a caller moves one of the counters once at most, and none if it has looked before. -/
theorem added_le {as : List (Action ρ)} (hrun : svc.run s as = some t) (i : Nat) :
    svc.added (·.hits) i s as + svc.added (·.coalesced) i s as ≤ if s.awaits i then 1 else 0 := by
  induction as generalizing s with
  | nil => exact Nat.zero_le _
  | cons a as ih =>
    obtain ⟨u, hstep, hrest⟩ := run_cons.1 hrun
    have hlater := ih hrest
    rw [added_cons hstep, added_cons hstep]
    rcases hstep.counters with ⟨hhits, hcoalesced⟩ | ⟨j, -, hj, hnew, hlooked, hmoved⟩
    · -- nothing is counted now, and what comes later is counted for who has not looked even then
      have hmono := hstep.awaits_le i
      rw [hhits, hcoalesced, Nat.sub_self, Nat.sub_self, ite_self]
      omega
    · by_cases hi : j = i
      · subst hi
        rw [hlooked] at hlater
        rw [hj, hnew]
        simp only [if_true, Bool.false_eq_true, if_false] at hlater ⊢
        omega
      · have hother : a.caller? ≠ some i := by
          rw [hj]
          exact fun h => hi (Option.some.inj h)
        have hmono := hstep.awaits_le i
        rw [if_neg hother, if_neg hother]
        omega

/-- What the callers add to a counter is all that it is moved by. -/
theorem sum_added (counter : Cache α → Nat)
    (hcounter : ∀ (s t : System ρ α) (a : Action ρ), Step svc s a t →
      counter t.cache = counter s.cache ∨
        ∃ i < s.callers.length, a.caller? = some i ∧ counter s.cache ≤ counter t.cache)
    {as : List (Action ρ)} (hrun : svc.run s as = some t) {n : Nat} (hn : t.callers.length ≤ n) :
    counter s.cache + ∑ i ∈ Finset.range n, svc.added counter i s as = counter t.cache := by
  induction as generalizing s with
  | nil =>
    obtain rfl := Option.some.inj hrun
    exact (congrArg _ (Finset.sum_const_zero)).trans (Nat.add_zero _)
  | cons a as ih =>
    obtain ⟨u, hstep, hrest⟩ := run_cons.1 hrun
    have hnow : counter s.cache + ∑ i ∈ Finset.range n,
        (if a.caller? = some i then counter u.cache - counter s.cache else 0) =
          counter u.cache := by
      rcases hcounter s u a hstep with heq | ⟨j, hj, ha, hle⟩
      · rw [heq, Nat.sub_self]
        simp
      · have hcame : s.callers.length ≤ n :=
          hstep.length_le.trans ((length_le_of_run hrest).trans hn)
        have hmem : j ∈ Finset.range n := Finset.mem_range.2 (hj.trans_le hcame)
        simp only [ha, Option.some.injEq]
        rw [Finset.sum_ite_eq, if_pos hmem, Nat.add_sub_cancel' hle]
    simp only [added_cons hstep]
    rw [Finset.sum_add_distrib, ← Nat.add_assoc, hnow, ih hrest]

/-! ## Counting callers and flights -/

/-- The step cancels a caller. -/
def Action.cancels : Action ρ → Bool
  | .cancel _ => true
  | _ => false

/-- What the callers have come to: those that found a result at once, those that waited, and those
that are still to look; and the flights, each of which was opened by a caller. -/
def System.accounted (s : System ρ α) : Nat :=
  s.cache.hits + s.cache.coalesced + s.callers.countP (·.isNew) + s.flights.length

/-- The caller that looks again finds nothing. -/
def Reopens (svc : Service ρ α) (s : System ρ α) (a : Action ρ) : Prop :=
  ∃ (i : Nat) (c : Caller ρ α), a = .look i ∧ s.callers[i]? = some c ∧ c.stage = .looking true ∧
    s.cache.entries.find? (svc.key c.request) = none

theorem countP_isNew_setStage {i : Nat} {c : Caller ρ α} (hc : s.callers[i]? = some c)
    (stage : Stage α) (hnew : ({ c with stage } : Caller ρ α).isNew = false) :
    (s.setStage i stage).callers.countP (·.isNew) + (if c.isNew then 1 else 0) =
      s.callers.countP (·.isNew) := by
  have hcount := countP_modify hc (·.isNew) fun c => { c with stage }
  rw [hnew] at hcount
  exact hcount

/-- A look counts a new caller for good; only one that looks again may open a flight on top. -/
theorem accounted_look {i : Nat} {c : Caller ρ α} {waited : Bool} (hc : s.callers[i]? = some c)
    (hstage : c.stage = .looking waited) : (svc.look s i c.request waited).accounted =
      s.accounted + if waited ∧ s.cache.entries.find? (svc.key c.request) = none then 1 else 0 := by
  have hnew : c.isNew = !waited := by
    obtain ⟨mode, request, stage⟩ := c
    subst hstage
    cases waited <;> rfl
  have hcount : ∀ stage : Stage α, ({ c with stage } : Caller ρ α).isNew = false →
      (s.setStage i stage).callers.countP (·.isNew) + (if waited then 0 else 1) =
        s.callers.countP (·.isNew) := by
    intro stage hlooked
    rw [← countP_isNew_setStage hc stage hlooked, hnew]
    cases waited <;> rfl
  unfold System.accounted
  cases hfind : s.cache.entries.find? (svc.key c.request) with
  | none =>
    have hleads := hcount (.leading s.cache.nextFlight) rfl
    rw [look_of_vacant hfind]
    show s.cache.hits + s.cache.coalesced +
      (s.setStage i (.leading s.cache.nextFlight)).callers.countP (·.isNew) +
        (s.flights ++ [(⟨c.request, i, .boarding⟩ : Flight ρ α)]).length = _
    rw [List.length_append, List.length_singleton]
    cases waited
    all_goals
      simp only [Bool.false_eq_true, if_false, if_true, false_and, and_self] at hleads ⊢
      omega
  | some entry =>
    cases entry with
    | ready result =>
      have hreturns := hcount (.returned result) rfl
      rw [look_of_ready hfind]
      show (if waited then s.cache.hits else s.cache.hits + 1) + s.cache.coalesced +
        (s.setStage i (.returned result)).callers.countP (·.isNew) + s.flights.length = _
      cases waited
      all_goals
        simp only [Bool.false_eq_true, if_false, if_true, reduceCtorEq, and_false] at hreturns ⊢
        omega
    | pending f =>
      have hwaits := hcount (.waiting f false) rfl
      rw [look_of_pending hfind]
      show s.cache.hits + (if waited then s.cache.coalesced else s.cache.coalesced + 1) +
        (s.setStage i (.waiting f false)).callers.countP (·.isNew) + s.flights.length = _
      cases waited
      all_goals
        simp only [Bool.false_eq_true, if_false, if_true, reduceCtorEq, and_false] at hwaits ⊢
        omega

theorem accounted_setStage {i : Nat} {c : Caller ρ α} (hc : s.callers[i]? = some c)
    (hnew : c.isNew = false) (stage : Stage α)
    (hstill : ({ c with stage } : Caller ρ α).isNew = false) :
    (s.setStage i stage).accounted = s.accounted := by
  have hcount := countP_isNew_setStage hc stage hstill
  rw [hnew] at hcount
  unfold System.accounted
  rw [← hcount]
  rfl

theorem accounted_setPhase (s : System ρ α) (f : Nat) (phase : Phase α) :
    (s.setPhase f phase).accounted = s.accounted := by
  unfold System.accounted System.setPhase
  rw [List.length_modify]

theorem accounted_land (s : System ρ α) (f : Nat) (result : α) :
    (s.land f result).accounted = s.accounted := by
  have hcount : (s.land f result).callers.countP (·.isNew) = s.callers.countP (·.isNew) := by
    refine List.countP_map.trans (List.countP_congr fun c _ => ?_)
    rw [Function.comp_apply, isNew_notify]
  rw [← accounted_setPhase s f (.landed result)]
  unfold System.accounted
  rw [hcount]
  rfl

/-- Each caller that comes is accounted for once, unless one is cancelled or looks again in vain. -/
theorem Step.accounted (h : Step svc s a t) (ha : a.cancels = false) :
    s.accounted + t.callers.length ≤ t.accounted + s.callers.length ∧
      (¬ Reopens svc s a → t.accounted + s.callers.length = s.accounted + t.callers.length) := by
  -- All steps but two leave both sides as they are.
  have hquiet : t.accounted = s.accounted → t.callers.length = s.callers.length →
      s.accounted + t.callers.length ≤ t.accounted + s.callers.length ∧
        (¬ Reopens svc s a →
          t.accounted + s.callers.length = s.accounted + t.callers.length) := by
    intro haccounted hlength
    rw [haccounted, hlength]
    exact ⟨le_rfl, fun _ => rfl⟩
  cases h with
  | call mode request =>
    have hcount : (s.callers ++ [(⟨mode, request, .looking false⟩ : Caller ρ α)]).countP (·.isNew) =
        s.callers.countP (·.isNew) + 1 := List.countP_append
    have haccounted : ({ s with
        callers := s.callers ++ [⟨mode, request, .looking false⟩] } : System ρ α).accounted =
          s.accounted + 1 := by
      unfold System.accounted
      dsimp only
      rw [hcount]
      omega
    rw [haccounted, List.length_append, List.length_singleton]
    exact ⟨by omega, fun _ => by omega⟩
  | @look i c waited hc hstage =>
    rw [accounted_look hc hstage, length_callers_look]
    refine ⟨by omega, fun hknown => ?_⟩
    rw [if_neg]
    · rfl
    · rintro ⟨rfl, hvacant⟩
      exact hknown ⟨i, c, rfl, hc, hstage, hvacant⟩
  | takeOff | commit => exact hquiet (accounted_setPhase s _ _) rfl
  | land => exact hquiet (accounted_land s _ _) (List.length_map ..)
  | wake hc hstage | timeOut hc hstage | deliver hc hstage =>
    refine hquiet (accounted_setStage hc ?_ _ rfl) (List.length_modify ..)
    rw [Caller.isNew, hstage]
  | cancel => exact absurd ha (by simp [Action.cancels])
  | invalidate =>
    refine hquiet ?_ rfl
    unfold Cache.invalidate
    split <;> rfl
  | clear => exact hquiet rfl rfl

/-! ## Runs -/

/-- The keys that the callers ask for. -/
def System.requested (svc : Service ρ α) (s : System ρ α) : Finset String :=
  (s.callers.map fun c => svc.key c.request).toFinset

/-- Every caller has returned. -/
def System.IsDone (s : System ρ α) : Prop := ∀ c ∈ s.callers, ∃ result, c.stage = .returned result

theorem not_reopens (hattr : IsAttributed svc s) (h : IsRemembered svc s) :
    ¬ Reopens svc s a := by
  rintro ⟨i, c, -, hc, hlooks, hvacant⟩
  exact h.known _ (hattr.relooks i c hc hlooks) hvacant

theorem System.IsDone.countP_isNew (h : s.IsDone) : s.callers.countP (·.isNew) = 0 := by
  refine List.countP_eq_zero.2 fun c hc => ?_
  obtain ⟨result, hresult⟩ := h c hc
  rw [Caller.isNew, hresult]
  exact Bool.false_ne_true

theorem System.IsDone.isLanded (h : s.IsDone) (hattr : IsAttributed svc s) {f : Nat}
    {fl : Flight ρ α} (hf : s.flights[f]? = some fl) : fl.phase.isLanded = true := by
  obtain ⟨c, hc, hstage⟩ := hattr.attended f fl hf
  obtain ⟨result, hresult⟩ := h c (List.mem_of_getElem? hc)
  rw [hresult] at hstage
  simpa using hstage

/-- When all have returned, every flight has been counted as a reading. -/
theorem System.IsDone.parses_eq (h : s.IsDone) (hattr : IsAttributed svc s)
    (hcounts : CountsReadings s) : s.cache.parses = s.flights.length := by
  refine hcounts.trans (List.countP_eq_length.2 fun fl hfl => ?_)
  obtain ⟨f, hf⟩ := List.getElem?_of_mem hfl
  have hlanded := h.isLanded hattr hf
  cases hphase : fl.phase with
  | boarding =>
    rw [hphase] at hlanded
    exact absurd hlanded Bool.false_ne_true
  | _ => rfl

theorem System.IsDone.toFinset_keys (h : s.IsDone) (hs : IsSound svc s) :
    (keys svc s.flights).toFinset = s.requested svc := by
  ext key
  rw [System.requested, List.mem_toFinset, List.mem_toFinset]
  constructor
  · intro hkey
    obtain ⟨fl, hfl, rfl⟩ := List.mem_map.1 hkey
    obtain ⟨f, hf⟩ := List.getElem?_of_mem hfl
    obtain ⟨c, hc, hrequest⟩ := Option.map_eq_some_iff.1 (hs.led f fl hf).leader
    exact List.mem_map.2 ⟨c, List.mem_of_getElem? hc, congrArg svc.key hrequest⟩
  · intro hkey
    obtain ⟨c, hmem, rfl⟩ := List.mem_map.1 hkey
    obtain ⟨i, hc⟩ := List.getElem?_of_mem hmem
    obtain ⟨result, hresult⟩ := h c hmem
    obtain ⟨f, fl, hf, hflkey, -⟩ := (hs.placed i c hc).returns result hresult
    exact hflkey ▸ mem_keys_of_getElem? hf

theorem System.IsDone.isReady (h : s.IsDone) (hs : IsSound svc s) (hattr : IsAttributed svc s)
    {key : String} {entry : CacheEntry α} (hentry : s.cache.entries.find? key = some entry) :
    Cache.isReady entry = true := by
  cases entry with
  | ready => rfl
  | pending f =>
    obtain ⟨fl, hf, -, hrunning⟩ := (hs.agrees.pending key f).1 hentry
    have hlanded := h.isLanded hattr hf
    rw [Phase.isLanded_of_isRunning hrunning] at hlanded
    exact absurd hlanded Bool.false_ne_true

/-- When all have returned and nothing was forgotten, there is a result for every flight. -/
theorem System.IsDone.size_eq (h : s.IsDone) (hs : IsSound svc s) (hattr : IsAttributed svc s)
    (hknown : IsRemembered svc s) : s.cache.size = s.flights.length := by
  have hready : s.cache.size = s.cache.entries.keys.length := by
    refine (congrArg List.length (List.filter_eq_self.2 fun e he => ?_)).trans
      (List.length_map ..).symm
    exact h.isReady hs hattr (KeyMap.mem_entries_iff.1 he)
  have hperm : s.cache.entries.keys.Perm (keys svc s.flights) := by
    refine (List.perm_ext_iff_of_nodup (KeyMap.nodup_keys _) hknown.single).2 fun key => ?_
    rw [KeyMap.mem_keys_iff, Option.isSome_iff_exists]
    constructor
    · rintro ⟨entry, hentry⟩
      cases entry with
      | pending f => exact absurd (h.isReady hs hattr hentry) Bool.false_ne_true
      | ready result =>
        obtain ⟨f, fl, hf, hkey, -⟩ := hs.agrees.ready key result hentry
        exact hkey ▸ mem_keys_of_getElem? hf
    · intro hkey
      exact Option.ne_none_iff_exists'.1 (hknown.known key hkey)
  rw [hready, hperm.length_eq]
  exact List.length_map ..

theorem isRemembered_empty : IsRemembered svc {} := ⟨by simp [keys], List.nodup_nil⟩

/-- A run without cancellations accounts for every caller that has come. -/
theorem length_le_accounted {as : List (Action ρ)} (hrun : svc.run {} as = some s)
    (hcancels : ∀ a ∈ as, a.cancels = false) : s.callers.length ≤ s.accounted := by
  refine run_induction (p := fun s => s.callers.length ≤ s.accounted) hrun le_rfl ?_
  intro a ha s t hle hstep
  have hmoved := (hstep.accounted (hcancels a ha)).1
  omega

/-- If it forgets nothing either, it accounts for nothing else. -/
theorem accounted_eq_length {as : List (Action ρ)} (hrun : svc.run {} as = some s)
    (hcancels : ∀ a ∈ as, a.cancels = false) (hkeeps : ∀ a ∈ as, a.forgets = false) :
    s.accounted = s.callers.length := by
  have hall : (IsSound svc s ∧ IsAttributed svc s ∧ IsRemembered svc s) ∧
      s.accounted = s.callers.length := by
    refine run_induction (p := fun s => (IsSound svc s ∧ IsAttributed svc s ∧
      IsRemembered svc s) ∧ s.accounted = s.callers.length) hrun
      ⟨⟨isSound_empty, isAttributed_empty, isRemembered_empty⟩, rfl⟩ ?_
    rintro a ha s t ⟨⟨hs, hattr, hknown⟩, heq⟩ hstep
    have hmoved := (hstep.accounted (hcancels a ha)).2 (not_reopens hattr hknown)
    refine ⟨⟨hs.step hstep, hstep.isAttributed hs hattr,
      hstep.isRemembered (hkeeps a ha) hknown⟩, ?_⟩
    omega
  exact hall.2

/-- What the counters come to in the course of a run. -/
structure AddsUp (svc : Service ρ α) (as : List (Action ρ)) (s : System ρ α) : Prop where
  once : ∀ i, svc.added (·.hits) i {} as + svc.added (·.coalesced) i {} as ≤ 1
  hits : ∑ i ∈ Finset.range s.callers.length, svc.added (·.hits) i {} as = s.cache.hits
  coalesced : ∑ i ∈ Finset.range s.callers.length, svc.added (·.coalesced) i {} as =
    s.cache.coalesced
  covered : s.IsDone → s.callers.length ≤ s.cache.parses + s.cache.hits + s.cache.coalesced
  parses : s.IsDone → (∀ a ∈ as, a.forgets = false) →
    s.cache.parses = (s.requested svc).card
  others : s.IsDone → (∀ a ∈ as, a.forgets = false) →
    s.cache.parses + (s.cache.hits + s.cache.coalesced) = s.callers.length
  size : s.IsDone → (∀ a ∈ as, a.forgets = false) → s.cache.size = (s.requested svc).card

/-- However the steps of callers and flights follow each other, as long as nobody is cancelled: a
caller moves one counter once at most, and nothing else moves the counters of hits and waits; when
all have returned, each was a hit, a wait or a reading; and if nothing was forgotten, each was just
one of these, with one reading and one result for each key. -/
theorem counters_add_up (svc : Service ρ α) (as : List (Action ρ)) (s : System ρ α)
    (hrun : svc.run {} as = some s) (hcancels : ∀ a ∈ as, a.cancels = false) :
    AddsUp svc as s := by
  have hs : IsSound svc s := isSound_empty.run hrun
  have hattr : IsAttributed svc s := isAttributed_of_run hrun
  have hcounts : CountsReadings s :=
    run_induction hrun rfl fun _ _ _ _ ht hstep => hstep.countsReadings ht
  have hcard : s.IsDone → (∀ a ∈ as, a.forgets = false) →
      s.flights.length = (s.requested svc).card := by
    intro hdone hkeeps
    rw [← hdone.toFinset_keys hs,
      List.toFinset_card_of_nodup (isRemembered_of_run hrun hkeeps isRemembered_empty).single]
    exact (List.length_map ..).symm
  refine ⟨fun i => added_le hrun i, ?_, ?_, ?_, ?_, ?_, ?_⟩
  · have hsum := sum_added (·.hits) (fun _ _ _ h => h.hits) hrun le_rfl
    exact (Nat.zero_add _).symm.trans hsum
  · have hsum := sum_added (·.coalesced) (fun _ _ _ h => h.coalesced) hrun le_rfl
    exact (Nat.zero_add _).symm.trans hsum
  · intro hdone
    have hle := length_le_accounted hrun hcancels
    rw [System.accounted, hdone.countP_isNew, ← hdone.parses_eq hattr hcounts] at hle
    omega
  · intro hdone hkeeps
    rw [hdone.parses_eq hattr hcounts, hcard hdone hkeeps]
  · intro hdone hkeeps
    have heq := accounted_eq_length hrun hcancels hkeeps
    rw [System.accounted, hdone.countP_isNew, ← hdone.parses_eq hattr hcounts] at heq
    omega
  · intro hdone hkeeps
    have hknown := isRemembered_of_run hrun hkeeps isRemembered_empty
    rw [hdone.size_eq hs hattr hknown, hcard hdone hkeeps]

/-- One caller waits for another one and looks in vain once, a third one asks for another form, and
a fourth one finds the result. -/
def fourCallers : List (Action String) :=
  [.call .async "01/GTGT", .call .blocking "01/GTGT", .look 0, .look 1, .takeOff 0, .timeOut 1,
    .look 1, .call .async "02/TNCN", .look 2, .commit 0, .land 0, .wake 1, .look 1, .takeOff 1,
    .deliver 0, .call .blocking "01/GTGT", .look 3, .commit 1, .land 1, .deliver 2]

theorem counters_add_up_fourCallers : ∃ s, echo.run {} fourCallers = some s ∧
    (∀ a ∈ fourCallers, a.cancels = false) ∧ (∀ a ∈ fourCallers, a.forgets = false) ∧
    s.IsDone ∧ AddsUp echo fourCallers s ∧ s.cache.parses = 2 ∧ s.cache.hits = 1 ∧
    s.cache.coalesced = 1 := by
  have hrun : (echo.run {} fourCallers).map (fun s => (s.callers.map (·.stage), s.cache.parses,
      s.cache.hits, s.cache.coalesced)) = some ([.returned ("01/GTGT", 1), .returned ("01/GTGT", 1),
        .returned ("02/TNCN", 2), .returned ("01/GTGT", 1)], 2, 1, 1) := by
    decide
  obtain ⟨s, hs, hend⟩ := Option.map_eq_some_iff.1 hrun
  obtain ⟨hstages, hparses, hhits, hcoalesced⟩ : s.callers.map (·.stage) = _ ∧
      s.cache.parses = _ ∧ s.cache.hits = _ ∧ s.cache.coalesced = _ := by
    simpa using hend
  have hdone : s.IsDone := by
    intro c hc
    have hmem : c.stage ∈ s.callers.map (·.stage) := List.mem_map.2 ⟨c, hc, rfl⟩
    rw [hstages] at hmem
    simp only [List.mem_cons, List.not_mem_nil, or_false] at hmem
    rcases hmem with h | h | h | h <;> exact ⟨_, h⟩
  have hcancels : ∀ a ∈ fourCallers, a.cancels = false := by decide
  have hkeeps : ∀ a ∈ fourCallers, a.forgets = false := by decide
  exact ⟨s, hs, hcancels, hkeeps, hdone, counters_add_up echo fourCallers s hs hcancels, hparses,
    hhits, hcoalesced⟩

end Filing.SingleFlight
