import Filing.Cache.Interleaving

/-!
# What a step can do

Every step of a caller, of a flight, or of someone who makes the cache forget, is taken by one of the
clauses below, and whenever the premises of a clause hold its step can be taken.
-/

namespace Filing.SingleFlight

variable {ρ α : Type} {svc : Service ρ α}

/-! ## Looking up -/

/-- A flight is opened for a caller that has found nothing. -/
def Service.openFlight (svc : Service ρ α) (s : System ρ α) (i : Nat) (request : ρ) :
    System ρ α :=
  { s with
    cache := { s.cache with
      entries := s.cache.entries.insert (svc.key request) (.pending s.cache.nextFlight)
      nextFlight := s.cache.nextFlight + 1 }
    flights := s.flights ++ [⟨request, i, .boarding⟩] }

section Look

variable {s : System ρ α} {i : Nat} {request : ρ} {waited : Bool}

theorem look_of_ready {result : α}
    (h : s.cache.entries.find? (svc.key request) = some (.ready result)) :
    svc.look s i request waited = { s.setStage i (.returned result) with
      cache := { s.cache with hits := if waited then s.cache.hits else s.cache.hits + 1 } } := by
  rw [Service.look, Cache.look, h]

theorem look_of_pending {f : Nat}
    (h : s.cache.entries.find? (svc.key request) = some (.pending f)) :
    svc.look s i request waited = { s.setStage i (.waiting f false) with
      cache := { s.cache with
        coalesced := if waited then s.cache.coalesced else s.cache.coalesced + 1 } } := by
  rw [Service.look, Cache.look, h]

theorem look_of_vacant (h : s.cache.entries.find? (svc.key request) = none) :
    svc.look s i request waited =
      (svc.openFlight s i request).setStage i (.leading s.cache.nextFlight) := by
  rw [Service.look, Cache.look, h]
  rfl

end Look

/-! ## The clauses -/

/-- What each step does, and when it can be taken. -/
inductive Step (svc : Service ρ α) (s : System ρ α) : Action ρ → System ρ α → Prop where
  | call (mode : Mode) (request : ρ) : Step svc s (.call mode request)
      { s with callers := s.callers ++ [⟨mode, request, .looking false⟩] }
  | look {i : Nat} {c : Caller ρ α} {waited : Bool} (hc : s.callers[i]? = some c)
      (hstage : c.stage = .looking waited) :
      Step svc s (.look i) (svc.look s i c.request waited)
  | takeOff {f : Nat} {fl : Flight ρ α} (hf : s.flights[f]? = some fl)
      (hphase : fl.phase = .boarding) : Step svc s (.takeOff f) (s.takeOff f)
  | commit {f : Nat} {fl : Flight ρ α} {number : Nat} (hf : s.flights[f]? = some fl)
      (hphase : fl.phase = .reading number) : Step svc s (.commit f)
      (s.commit f (svc.key fl.request) (svc.read fl.request number))
  | land {f : Nat} {fl : Flight ρ α} {result : α} (hf : s.flights[f]? = some fl)
      (hphase : fl.phase = .committed result) : Step svc s (.land f) (s.land f result)
  | wake {i f : Nat} {c : Caller ρ α} {notified : Bool} (hc : s.callers[i]? = some c)
      (hstage : c.stage = .waiting f notified) (hasync : c.mode = .async → notified = true)
      (hblocking : c.mode = .blocking → f ∈ s.cache.landed) :
      Step svc s (.wake i) (s.setStage i (.looking true))
  | timeOut {i f : Nat} {c : Caller ρ α} {notified : Bool} (hc : s.callers[i]? = some c)
      (hstage : c.stage = .waiting f notified) :
      Step svc s (.timeOut i) (s.setStage i (.looking true))
  | deliver {i f : Nat} {c : Caller ρ α} {fl : Flight ρ α} {result : α}
      (hc : s.callers[i]? = some c) (hstage : c.stage = .leading f)
      (hf : s.flights[f]? = some fl) (hphase : fl.phase = .landed result) :
      Step svc s (.deliver i) (s.setStage i (.returned result))
  | cancel {i : Nat} {c : Caller ρ α} (hc : s.callers[i]? = some c) (hmode : c.mode = .async)
      (hopen : c.stage.isOpen = true) : Step svc s (.cancel i) (s.setStage i .cancelled)
  | invalidate (request : ρ) : Step svc s (.invalidate request)
      { s with cache := (s.cache.invalidate (svc.key request)).1 }
  | clear : Step svc s .clear { s with cache := s.cache.clear }

theorem step_eq_some_iff {s s' : System ρ α} {a : Action ρ} :
    svc.step s a = some s' ↔ Step svc s a s' := by
  constructor
  · intro h
    cases a <;> simp only [Service.step] at h
    case call mode request =>
      obtain rfl := Option.some.inj h
      exact .call mode request
    case look i =>
      split at h <;> simp only [Option.some.injEq, reduceCtorEq] at h
      next hc => exact h ▸ .look hc rfl
    case takeOff f =>
      split at h <;> simp only [Option.some.injEq, reduceCtorEq] at h
      next hf => exact h ▸ .takeOff hf rfl
    case commit f =>
      split at h <;> simp only [Option.some.injEq, reduceCtorEq] at h
      next hf => exact h ▸ .commit hf rfl
    case land f =>
      split at h <;> simp only [Option.some.injEq, reduceCtorEq] at h
      next hf => exact h ▸ .land hf rfl
    case wake i =>
      split at h
      · next hc => exact Option.some.inj h ▸ .wake hc rfl (fun _ => rfl) nofun
      · next hc =>
        split at h <;> simp only [Option.some.injEq, reduceCtorEq] at h
        next hlanded => exact h ▸ .wake hc rfl nofun fun _ => hlanded
      · exact absurd h (by simp)
    case timeOut i =>
      split at h <;> simp only [Option.some.injEq, reduceCtorEq] at h
      next hc => exact h ▸ .timeOut hc rfl
    case deliver i =>
      split at h
      · next hc =>
        split at h <;> simp only [Option.some.injEq, reduceCtorEq] at h
        next hf => exact h ▸ .deliver hc rfl hf rfl
      · exact absurd h (by simp)
    case cancel i =>
      split at h
      · next hc =>
        split at h <;> simp only [Option.some.injEq, reduceCtorEq] at h
        next hopen => exact h ▸ .cancel hc rfl hopen
      · exact absurd h (by simp)
    case invalidate request =>
      obtain rfl := Option.some.inj h
      exact .invalidate request
    case clear =>
      obtain rfl := Option.some.inj h
      exact .clear
  · intro h
    cases h with
    | call => rfl
    | @look i c waited hc hstage =>
      obtain ⟨mode, request, stage⟩ := c
      subst hstage
      simp only [Service.step, hc]
    | @takeOff f fl hf hphase =>
      obtain ⟨request, leader, phase⟩ := fl
      subst hphase
      simp only [Service.step, hf]
    | @commit f fl number hf hphase =>
      obtain ⟨request, leader, phase⟩ := fl
      subst hphase
      simp only [Service.step, hf]
    | @land f fl result hf hphase =>
      obtain ⟨request, leader, phase⟩ := fl
      subst hphase
      simp only [Service.step, hf]
    | @wake i f c notified hc hstage hasync hblocking =>
      obtain ⟨mode, request, stage⟩ := c
      subst hstage
      cases mode with
      | async =>
        obtain rfl := hasync rfl
        simp only [Service.step, hc]
      | blocking => simp only [Service.step, hc, if_pos (hblocking rfl)]
    | @timeOut i f c notified hc hstage =>
      obtain ⟨mode, request, stage⟩ := c
      subst hstage
      simp only [Service.step, hc]
    | @deliver i f c fl result hc hstage hf hphase =>
      obtain ⟨mode, request, stage⟩ := c
      obtain ⟨request', leader, phase⟩ := fl
      subst hstage hphase
      simp only [Service.step, hc, hf]
    | @cancel i c hc hmode hopen =>
      obtain ⟨mode, request, stage⟩ := c
      subst hmode
      simp only [Service.step, hc, if_pos hopen]
    | invalidate => rfl
    | clear => rfl

/-! ## Runs -/

theorem run_cons {s s' : System ρ α} {a : Action ρ} {as : List (Action ρ)} :
    svc.run s (a :: as) = some s' ↔ ∃ t, Step svc s a t ∧ svc.run t as = some s' := by
  unfold Service.run
  rw [List.foldlM_cons]
  simp only [Option.bind_eq_bind, Option.bind_eq_some_iff, step_eq_some_iff]

/-- What every step of a run preserves holds after the run. -/
theorem run_induction {p : System ρ α → Prop} {s s' : System ρ α} {as : List (Action ρ)}
    (hrun : svc.run s as = some s') (hs : p s)
    (hstep : ∀ a ∈ as, ∀ t t', p t → Step svc t a t' → p t') : p s' := by
  induction as generalizing s with
  | nil =>
    obtain rfl := Option.some.inj hrun
    exact hs
  | cons a as ih =>
    obtain ⟨t, ht, hrest⟩ := run_cons.1 hrun
    obtain ⟨ha, has⟩ := List.forall_mem_cons.1 hstep
    exact ih hrest (ha s t hs ht) has

end Filing.SingleFlight
