import Filing.Proofs.Cache.Flights
import Mathlib.Logic.Relation

/-!
# Nobody waits in vain

A flight that is under way can always take its next step, whatever callers do in between, and after
three of its own steps it has landed. So whoever waits for it will be able to go on, and each caller
that is not cancelled can return.
-/

namespace Filing.SingleFlight

variable {ρ α : Type} {svc : Service ρ α} {s s' : System ρ α}

/-! ## The steps of a flight -/

/-- The steps that a flight takes before it has landed. -/
def Phase.stepsLeft : Phase α → Nat
  | .boarding => 3
  | .reading _ => 2
  | .committed _ => 1
  | .landed _ => 0

/-- The steps of a flight. -/
def Action.isOf (f : Nat) : Action ρ → Bool
  | .takeOff g => g == f
  | .commit g => g == f
  | .land g => g == f
  | _ => false

theorem isLanded_iff {p : Phase α} : p.isLanded = true ↔ p.stepsLeft = 0 := by
  cases p <;> simp [Phase.isLanded, Phase.stepsLeft]

theorem getElem?_setPhase {g : Nat} {x : Flight ρ α} (hg : s.flights[g]? = some x) (f : Nat)
    (phase : Phase α) : (s.setPhase f phase).flights[g]? =
      some { x with phase := if f = g then phase else x.phase } := by
  unfold System.setPhase
  dsimp only
  rw [List.getElem?_modify, hg]
  split <;> simp [*]

/-- The steps of a flight bring it closer to its landing, and no other step does anything to it. -/
theorem Step.stepsLeft {a : Action ρ} {f : Nat} {fl : Flight ρ α} (h : Step svc s a s')
    (hf : s.flights[f]? = some fl) : ∃ fl', s'.flights[f]? = some fl' ∧
      fl'.phase.stepsLeft + (if a.isOf f then 1 else 0) = fl.phase.stepsLeft := by
  cases h with
  | call | wake | timeOut | deliver | cancel | invalidate | clear => exact ⟨fl, hf, rfl⟩
  | @look i c waited hc hstage =>
    refine ⟨fl, ?_, rfl⟩
    unfold Service.look
    split
    · exact hf
    · exact hf
    · rw [List.getElem?_append_left (List.getElem?_eq_some_iff.1 hf).1, hf]
  | @takeOff g x hg hphase | @commit g x number hg hphase | @land g x result hg hphase =>
    refine ⟨_, getElem?_setPhase hf g _, ?_⟩
    by_cases hgf : g = f
    · subst hgf
      obtain rfl := Option.some.inj (hg.symm.trans hf)
      simp [Action.isOf, Phase.stepsLeft, hphase]
    · simp [Action.isOf, hgf]

theorem stepsLeft_of_run {as : List (Action ρ)} {f : Nat} {fl : Flight ρ α}
    (hrun : svc.run s as = some s') (hf : s.flights[f]? = some fl) :
    ∃ fl', s'.flights[f]? = some fl' ∧
      fl'.phase.stepsLeft + as.countP (·.isOf f) = fl.phase.stepsLeft := by
  induction as generalizing s fl with
  | nil =>
    obtain rfl := Option.some.inj hrun
    exact ⟨fl, hf, rfl⟩
  | cons a as ih =>
    obtain ⟨t, hstep, hrest⟩ := run_cons.1 hrun
    obtain ⟨fl₁, hf₁, hleft₁⟩ := hstep.stepsLeft hf
    obtain ⟨fl₂, hf₂, hleft₂⟩ := ih hrest hf₁
    refine ⟨fl₂, hf₂, ?_⟩
    rw [List.countP_cons]
    omega

variable (svc) in
/-- A flight that has not landed can take a step. -/
theorem exists_step {f : Nat} {fl : Flight ρ α} (hf : s.flights[f]? = some fl)
    (hleft : fl.phase.isLanded = false) : ∃ a t, a.isOf f = true ∧ Step svc s a t := by
  cases hphase : fl.phase with
  | boarding => exact ⟨.takeOff f, _, beq_self_eq_true f, .takeOff hf hphase⟩
  | reading number => exact ⟨.commit f, _, beq_self_eq_true f, .commit hf hphase⟩
  | committed result => exact ⟨.land f, _, beq_self_eq_true f, .land hf hphase⟩
  | landed result =>
    rw [hphase] at hleft
    exact absurd hleft (by simp [Phase.isLanded])

/-- The flight is on its way: whatever happens, it can take its next step until it has landed, and
three steps of its own are enough. -/
structure WillLand (svc : Service ρ α) (s : System ρ α) (f : Nat) : Prop where
  goesOn : ∀ as s', svc.run s as = some s' → ¬ HasLanded s'.flights f →
    ∃ a, a.isOf f = true ∧ (svc.step s' a).isSome = true
  lands : ∀ as s', svc.run s as = some s' → 3 ≤ as.countP (·.isOf f) → HasLanded s'.flights f

theorem willLand {f : Nat} {fl : Flight ρ α} (hf : s.flights[f]? = some fl) :
    WillLand svc s f where
  goesOn as s' hrun hnot := by
    obtain ⟨fl', hf', -⟩ := stepsLeft_of_run hrun hf
    have hleft : fl'.phase.isLanded = false := by
      rw [← Bool.not_eq_true]
      exact fun h => hnot ⟨fl', hf', h⟩
    obtain ⟨a, t, ha, hstep⟩ := exists_step svc hf' hleft
    exact ⟨a, ha, Option.isSome_iff_exists.2 ⟨t, step_eq_some_iff.2 hstep⟩⟩
  lands as s' hrun hcount := by
    obtain ⟨fl', hf', hleft⟩ := stepsLeft_of_run hrun hf
    have hle : fl.phase.stepsLeft ≤ 3 := by cases fl.phase <;> simp [Phase.stepsLeft]
    exact ⟨fl', hf', isLanded_iff.2 (by omega)⟩

/-! ## The way of a caller -/

/-- The steps of callers and flights that lead to a result. -/
def Action.isWork : Action ρ → Bool
  | .look _ => true
  | .takeOff _ => true
  | .commit _ => true
  | .land _ => true
  | .wake _ => true
  | .deliver _ => true
  | _ => false

/-- What callers and flights can come to by working on. -/
def Works (svc : Service ρ α) : System ρ α → System ρ α → Prop :=
  Relation.ReflTransGen fun s t => ∃ a, a.isWork = true ∧ Step svc s a t

theorem Works.step {a : Action ρ} {t : System ρ α} (ha : a.isWork = true) (h : Step svc s a t)
    (hworks : Works svc t s') : Works svc s s' :=
  .head ⟨a, ha, h⟩ hworks

theorem Works.isSound (h : Works svc s s') (hs : IsSound svc s) : IsSound svc s' := by
  induction h with
  | refl => exact hs
  | tail _ hlast ih =>
    obtain ⟨a, -, hstep⟩ := hlast
    exact ih.step hstep

theorem Works.exists_run (h : Works svc s s') :
    ∃ as, (∀ a ∈ as, a.isWork = true) ∧ svc.run s as = some s' := by
  induction h using Relation.ReflTransGen.head_induction_on with
  | refl => exact ⟨[], by simp, rfl⟩
  | head hfirst _ ih =>
    obtain ⟨a, ha, hstep⟩ := hfirst
    obtain ⟨as, has, hrun⟩ := ih
    exact ⟨a :: as, List.forall_mem_cons.2 ⟨ha, has⟩, run_cons.2 ⟨_, hstep, hrun⟩⟩

/-- What a landing leaves behind: the callers are notified, and the cache has the result, unless it
was committed before and may have been forgotten since. -/
structure HasLandedFrom (svc : Service ρ α) (s : System ρ α) (f : Nat) (fl : Flight ρ α)
    (s' : System ρ α) : Prop where
  landed : HasLanded s'.flights f
  callers : s'.callers = s.callers.map (·.notify f)
  ready : fl.phase.isRunning = true →
    ∃ result, s'.cache.entries.find? (svc.key fl.request) = some (.ready result)

theorem getElem?_setPhase_self {f : Nat} {fl : Flight ρ α} (hf : s.flights[f]? = some fl)
    (phase : Phase α) : (s.setPhase f phase).flights[f]? = some { fl with phase } := by
  rw [getElem?_setPhase hf, if_pos rfl]

variable (svc) in
theorem exists_landing_of_committed {f : Nat} {fl : Flight ρ α} {result : α}
    (hf : s.flights[f]? = some fl) (hphase : fl.phase = .committed result) :
    ∃ s', Works svc s s' ∧ HasLanded s'.flights f ∧ s'.callers = s.callers.map (·.notify f) ∧
      s'.cache.entries = s.cache.entries :=
  ⟨_, .single ⟨.land f, rfl, .land hf hphase⟩, ⟨_, getElem?_setPhase_self hf _, rfl⟩, rfl, rfl⟩

variable (svc) in
theorem exists_landing_of_reading {f : Nat} {fl : Flight ρ α} {number : Nat}
    (hf : s.flights[f]? = some fl) (hphase : fl.phase = .reading number) :
    ∃ s', Works svc s s' ∧ HasLandedFrom svc s f fl s' := by
  let result := svc.read fl.request number
  let t := s.commit f (svc.key fl.request) result
  have hstep : Step svc s (.commit f) t := .commit hf hphase
  have ht : t.flights[f]? = some { fl with phase := .committed result } :=
    getElem?_setPhase_self hf _
  obtain ⟨s', hworks, hlanded, hcallers, hentries⟩ := exists_landing_of_committed svc ht rfl
  refine ⟨s', hworks.head ⟨_, rfl, hstep⟩, hlanded, hcallers, fun _ => ⟨result, ?_⟩⟩
  rw [hentries]
  exact KeyMap.find?_insert_self ..

variable (svc) in
theorem exists_landing {f : Nat} {fl : Flight ρ α} (hf : s.flights[f]? = some fl)
    (hleft : fl.phase.isLanded = false) : ∃ s', Works svc s s' ∧ HasLandedFrom svc s f fl s' := by
  cases hphase : fl.phase with
  | boarding =>
    have hstep : Step svc s (.takeOff f) (s.takeOff f) := .takeOff hf hphase
    have ht : (s.takeOff f).flights[f]? =
        some { fl with phase := .reading s.cache.takeOff.parses } := getElem?_setPhase_self hf _
    obtain ⟨s', hworks, hlanded, hcallers, hready⟩ := exists_landing_of_reading svc ht rfl
    exact ⟨s', hworks.head ⟨_, rfl, hstep⟩, hlanded, hcallers, fun _ => hready rfl⟩
  | reading number => exact exists_landing_of_reading svc hf hphase
  | committed result =>
    obtain ⟨s', hworks, hlanded, hcallers, -⟩ := exists_landing_of_committed svc hf hphase
    refine ⟨s', hworks, hlanded, hcallers, fun hrunning => ?_⟩
    rw [hphase] at hrunning
    exact absurd hrunning (by simp [Phase.isRunning])
  | landed result =>
    rw [hphase] at hleft
    exact absurd hleft (by simp [Phase.isLanded])

/-! ## Every caller can return -/

/-- The caller can come to return by the work of callers and flights. -/
def CanReturn (svc : Service ρ α) (s : System ρ α) (i : Nat) (mode : Mode) (request : ρ) : Prop :=
  ∃ s' result, Works svc s s' ∧ s'.callers[i]? = some ⟨mode, request, .returned result⟩

variable {i f : Nat} {c : Caller ρ α} {fl : Flight ρ α}

theorem Works.canReturn {mode : Mode} {request : ρ} (h : Works svc s s')
    (hreturn : CanReturn svc s' i mode request) : CanReturn svc s i mode request := by
  obtain ⟨t, result, hworks, ht⟩ := hreturn
  exact ⟨t, result, h.trans hworks, ht⟩

theorem getElem?_setStage (hc : s.callers[i]? = some c) (stage : Stage α) :
    (s.setStage i stage).callers[i]? = some { c with stage } := by
  unfold System.setStage
  dsimp only
  rw [List.getElem?_modify, hc]
  simp

theorem HasLandedFrom.getElem?_callers (h : HasLandedFrom svc s f fl s')
    (hc : s.callers[i]? = some c) : s'.callers[i]? = some (c.notify f) := by
  rw [h.callers, List.getElem?_map, hc]
  rfl

theorem notify_of_not_waiting (h : ∀ g notified, c.stage ≠ .waiting g notified) :
    c.notify f = c := by
  unfold Caller.notify
  split
  · next g notified _ hstage => exact absurd hstage (h g notified)
  · rfl

theorem notify_of_waiting {notified : Bool} (h : c.stage = .waiting f notified) :
    ∃ b, c.notify f = { c with stage := .waiting f b } := by
  obtain ⟨mode, request, stage⟩ := c
  dsimp only at h
  subst h
  cases mode with
  | async => exact ⟨true, if_pos rfl⟩
  | blocking => exact ⟨notified, rfl⟩

theorem canReturn_of_landed (hc : s.callers[i]? = some c) (hstage : c.stage = .leading f)
    (hlanded : HasLanded s.flights f) : CanReturn svc s i c.mode c.request := by
  obtain ⟨fl, hf, hphase⟩ := hlanded
  cases hresult : fl.phase with
  | landed result =>
    have hstep : Step svc s (.deliver i) _ := .deliver hc hstage hf hresult
    exact ⟨_, result, .single ⟨_, rfl, hstep⟩, getElem?_setStage hc _⟩
  | _ =>
    rw [hresult] at hphase
    exact absurd hphase (by simp [Phase.isLanded])

theorem canReturn_of_leading (h : IsSound svc s) (hc : s.callers[i]? = some c)
    (hstage : c.stage = .leading f) : CanReturn svc s i c.mode c.request := by
  obtain ⟨fl, hf, -, -⟩ := (h.placed i c hc).leads f hstage
  cases hlanded : fl.phase.isLanded with
  | true => exact canReturn_of_landed hc hstage ⟨fl, hf, hlanded⟩
  | false =>
    obtain ⟨s', hworks, hfrom⟩ := exists_landing svc hf hlanded
    have hc' := hfrom.getElem?_callers hc
    rw [notify_of_not_waiting (by simp [hstage])] at hc'
    exact hworks.canReturn (canReturn_of_landed hc' hstage hfrom.landed)

theorem canReturn_of_ready {waited : Bool} {result : α} (hc : s.callers[i]? = some c)
    (hstage : c.stage = .looking waited)
    (hready : s.cache.entries.find? (svc.key c.request) = some (.ready result)) :
    CanReturn svc s i c.mode c.request := by
  refine ⟨_, result, .single ⟨.look i, rfl, .look hc hstage⟩, ?_⟩
  rw [look_of_ready hready]
  exact getElem?_setStage hc _

/-- A caller that looks finds a result, or waits for a flight that leaves one, or leads. -/
theorem canReturn_of_looking {waited : Bool} (h : IsSound svc s) (hc : s.callers[i]? = some c)
    (hstage : c.stage = .looking waited) : CanReturn svc s i c.mode c.request := by
  cases hfind : s.cache.entries.find? (svc.key c.request) with
  | none =>
    have hstep : Step svc s (.look i) _ := .look hc hstage
    have hc' : (svc.look s i c.request waited).callers[i]? =
        some { c with stage := .leading s.cache.nextFlight } := by
      rw [look_of_vacant hfind]
      exact getElem?_setStage hc _
    have hworks : Works svc s (svc.look s i c.request waited) := .single ⟨_, rfl, hstep⟩
    have hreturn := canReturn_of_leading (h.step hstep) hc' rfl
    exact hworks.canReturn hreturn
  | some entry =>
    cases entry with
    | ready result => exact canReturn_of_ready hc hstage hfind
    | pending g =>
      obtain ⟨fl, hg, hkey, hrunning⟩ := (h.agrees.pending _ _).1 hfind
      have hlanded := Phase.isLanded_of_isRunning hrunning
      obtain ⟨s', hworks, hfrom⟩ := exists_landing svc hg hlanded
      have hc' := hfrom.getElem?_callers hc
      rw [notify_of_not_waiting (by simp [hstage])] at hc'
      obtain ⟨result, hready⟩ := hfrom.ready hrunning
      exact hworks.canReturn (canReturn_of_ready hc' hstage (hkey ▸ hready))

/-- The wake-up of a caller whose flight has landed is never lost. -/
theorem step_wake_of_landed {notified : Bool} (h : IsSound svc s) (hc : s.callers[i]? = some c)
    (hstage : c.stage = .waiting f notified) (hlanded : HasLanded s.flights f) :
    Step svc s (.wake i) (s.setStage i (.looking true)) := by
  obtain ⟨fl, hf, -, hnotified⟩ := (h.placed i c hc).waits f notified hstage
  refine .wake hc hstage (fun hmode => hnotified hmode ?_) fun _ => (h.agrees.landed f).2 hlanded
  exact (exists_iff hf).1 hlanded

theorem canReturn_of_waiting {notified : Bool} (h : IsSound svc s) (hc : s.callers[i]? = some c)
    (hstage : c.stage = .waiting f notified) : CanReturn svc s i c.mode c.request := by
  have hwoken : ∀ (t : System ρ α) (d : Caller ρ α) (b : Bool), IsSound svc t →
      t.callers[i]? = some d → d.stage = .waiting f b → HasLanded t.flights f →
      CanReturn svc t i d.mode d.request := by
    intro t d b ht hd hdstage hlanded
    have hstep := step_wake_of_landed ht hd hdstage hlanded
    have hworks : Works svc t (t.setStage i (.looking true)) := .single ⟨_, rfl, hstep⟩
    have hd' : (t.setStage i (.looking true)).callers[i]? =
        some { d with stage := .looking true } := getElem?_setStage hd _
    have hreturn := canReturn_of_looking (ht.step hstep) hd' rfl
    exact hworks.canReturn hreturn
  obtain ⟨fl, hf, -, -⟩ := (h.placed i c hc).waits f notified hstage
  cases hlanded : fl.phase.isLanded with
  | true => exact hwoken s c notified h hc hstage ⟨fl, hf, hlanded⟩
  | false =>
    obtain ⟨s', hworks, hfrom⟩ := exists_landing svc hf hlanded
    have hc' := hfrom.getElem?_callers hc
    obtain ⟨b, hb⟩ := notify_of_waiting hstage
    have hreturn := hwoken s' _ b (hworks.isSound h) hc' (by rw [hb]) hfrom.landed
    rw [hb] at hreturn
    exact hworks.canReturn hreturn

theorem canReturn (h : IsSound svc s) (hc : s.callers[i]? = some c) (hopen : c.stage ≠ .cancelled) :
    CanReturn svc s i c.mode c.request := by
  obtain ⟨mode, request, stage⟩ := c
  cases stage with
  | looking waited => exact canReturn_of_looking h hc rfl
  | waiting f notified => exact canReturn_of_waiting h hc rfl
  | leading f => exact canReturn_of_leading h hc rfl
  | returned result => exact ⟨s, result, .refl, hc⟩
  | cancelled => exact absurd rfl hopen

/-! ## Callers that are not disturbed -/

/-- A caller whose steps no other one comes between does what `Cache.get` does. -/
theorem works_get (h : IsSound svc s) {mode : Mode} {request : ρ} {result : α}
    (hc : s.callers[i]? = some ⟨mode, request, .looking false⟩)
    (hget : (s.cache.get (svc.key request) (svc.read request)).2 = some result) :
    ∃ s', Works svc s s' ∧ s'.cache = (s.cache.get (svc.key request) (svc.read request)).1 ∧
      s'.callers[i]? = some ⟨mode, request, .returned result⟩ := by
  have hlook : Step svc s (.look i) (svc.look s i request false) := .look hc rfl
  unfold Cache.get Cache.look at hget ⊢
  cases hfind : s.cache.entries.find? (svc.key request) with
  | some entry =>
    cases entry with
    | ready r =>
      rw [hfind] at hget
      obtain rfl : r = result := Option.some.inj hget
      refine ⟨_, .single ⟨_, rfl, hlook⟩, ?_, ?_⟩
      · rw [look_of_ready hfind]
      · rw [look_of_ready hfind]
        exact getElem?_setStage hc _
    | pending f =>
      rw [hfind] at hget
      exact absurd hget (by simp)
  | none =>
    rw [hfind] at hget
    obtain rfl : svc.read request (s.cache.parses + 1) = result := Option.some.inj hget
    rw [look_of_vacant hfind] at hlook
    let n := s.cache.nextFlight
    let led := (svc.openFlight s i request).setStage i (.leading n)
    let result := svc.read request (s.cache.parses + 1)
    let committed := (led.takeOff n).commit n (svc.key request) result
    have hboarding : led.flights[n]? = some ⟨request, i, .boarding⟩ := by
      show (s.flights ++ _)[s.cache.nextFlight]? = _
      rw [h.agrees.numbered]
      exact List.getElem?_concat_length
    have hreading : (led.takeOff n).flights[n]? =
        some ⟨request, i, .reading (s.cache.parses + 1)⟩ := getElem?_setPhase_self hboarding _
    have hcommitted : committed.flights[n]? = some ⟨request, i, .committed result⟩ :=
      getElem?_setPhase_self hreading _
    have hlanded : (committed.land n result).flights[n]? = some ⟨request, i, .landed result⟩ :=
      getElem?_setPhase_self hcommitted _
    have htakeOff : Step svc led (.takeOff n) (led.takeOff n) := .takeOff hboarding rfl
    have hcommit : Step svc (led.takeOff n) (.commit n) committed := .commit hreading rfl
    have hland : Step svc committed (.land n) (committed.land n result) := .land hcommitted rfl
    have hleading : (committed.land n result).callers[i]? = some ⟨mode, request, .leading n⟩ := by
      show ((s.setStage i (.leading n)).callers.map (·.notify n))[i]? = _
      rw [List.getElem?_map, getElem?_setStage hc]
      exact congrArg some (notify_of_not_waiting nofun)
    have hdeliver : Step svc (committed.land n result) (.deliver i) _ :=
      .deliver hleading rfl hlanded rfl
    refine ⟨_, ?_, ?_, getElem?_setStage hleading _⟩
    · exact .head ⟨_, rfl, hlook⟩ <| .head ⟨_, rfl, htakeOff⟩ <| .head ⟨_, rfl, hcommit⟩ <|
        .head ⟨_, rfl, hland⟩ <| .single ⟨_, rfl, hdeliver⟩
    · rfl

theorem getTemplate_eq_get (c : TemplateCache) (rootName source formCode : String) :
    c.getTemplate rootName source formCode = Cache.get c
      ((templates rootName).key (source, formCode))
      ((templates rootName).read (source, formCode)) := rfl

/-- So does one that asks for a template. -/
theorem works_getTemplate {rootName source formCode : String}
    {s : System (String × String) NumberedReading} (h : IsSound (templates rootName) s)
    {mode : Mode} {result : NumberedReading}
    (hc : s.callers[i]? = some ⟨mode, (source, formCode), .looking false⟩)
    (hget : (TemplateCache.getTemplate s.cache rootName source formCode).2 = some result) :
    ∃ s', Works (templates rootName) s s' ∧
      s'.cache = (TemplateCache.getTemplate s.cache rootName source formCode).1 ∧
      s'.callers[i]? = some ⟨mode, (source, formCode), .returned result⟩ := by
  rw [getTemplate_eq_get] at hget ⊢
  exact works_get h hc hget

end Filing.SingleFlight
