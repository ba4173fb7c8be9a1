import Filing.Proofs.Cache.SingleFlight

/-!
# Flights and their leaders

A flight is opened by a caller that leads it from then on: the caller does nothing but wait until
the flight lands, and then it returns, unless it is cancelled before. A caller that has waited for
somebody else and looks again finds that there is a flight for its key already.
-/

namespace Filing.SingleFlight

variable {ρ α : Type} {svc : Service ρ α} {s t : System ρ α} {a : Action ρ}

/-- Who leads a flight waits for it to land, unless it is cancelled. -/
def Flight.IsAttended (callers : List (Caller ρ α)) (f : Nat) (fl : Flight ρ α) : Prop :=
  ∃ c, callers[fl.leader]? = some c ∧ (c.stage = .leading f ∨ c.stage = .cancelled ∨
    fl.phase.isLanded = true ∧ ∃ result, c.stage = .returned result)

/-- Every flight is attended, and a caller that looks again has a flight for its key. -/
structure IsAttributed (svc : Service ρ α) (s : System ρ α) : Prop where
  attended : ∀ (f : Nat) (fl : Flight ρ α), s.flights[f]? = some fl → fl.IsAttended s.callers f
  relooks : ∀ (i : Nat) (c : Caller ρ α), s.callers[i]? = some c → c.stage = .looking true →
    svc.key c.request ∈ keys svc s.flights

theorem mem_keys_of_getElem? {flights : List (Flight ρ α)} {f : Nat} {fl : Flight ρ α}
    (hf : flights[f]? = some fl) : svc.key fl.request ∈ keys svc flights :=
  List.mem_map.2 ⟨fl, List.mem_of_getElem? hf, rfl⟩

/-- A caller that leads no flight may move on. -/
theorem Flight.IsAttended.setStage {f : Nat} {fl : Flight ρ α} (h : fl.IsAttended s.callers f)
    {i : Nat} {c : Caller ρ α} (hc : s.callers[i]? = some c) {stage : Stage α}
    (hmoves : fl.leader = i → stage = .leading f ∨ stage = .cancelled ∨
      fl.phase.isLanded = true ∧ ∃ result, stage = .returned result) :
    fl.IsAttended (s.setStage i stage).callers f := by
  unfold IsAttended System.setStage
  rw [List.getElem?_modify]
  by_cases hi : i = fl.leader
  · subst hi
    rw [hc]
    exact ⟨{ c with stage }, by simp, hmoves rfl⟩
  · obtain ⟨d, hd, hstage⟩ := h
    exact ⟨d, by simp [hi, hd], hstage⟩

theorem IsAttributed.setStage (h : IsAttributed svc s) {i : Nat} {c : Caller ρ α}
    (hc : s.callers[i]? = some c) {stage : Stage α}
    (hmoves : ∀ (f : Nat) (fl : Flight ρ α), s.flights[f]? = some fl → fl.leader = i →
      stage = .leading f ∨ stage = .cancelled ∨
        fl.phase.isLanded = true ∧ ∃ result, stage = .returned result)
    (hrelooks : stage = .looking true → svc.key c.request ∈ keys svc s.flights) :
    IsAttributed svc (s.setStage i stage) where
  attended f fl hf := (h.attended f fl hf).setStage hc (hmoves f fl hf)
  relooks j d hd hstage := by
    unfold System.setStage at hd
    rw [List.getElem?_modify] at hd
    by_cases hj : i = j
    · subst hj
      rw [hc] at hd
      obtain rfl : { c with stage } = d := by simpa using hd
      exact hrelooks hstage
    · exact h.relooks j d (by simpa [hj] using hd) hstage

/-- A flight moves on; its leader stays. -/
theorem IsAttributed.setPhase {cache' : Cache α} (h : IsAttributed svc s) {f : Nat}
    {fl : Flight ρ α} (hf : s.flights[f]? = some fl) {phase : Phase α}
    (hlanded : fl.phase.isLanded = true → phase.isLanded = true) :
    IsAttributed svc { s.setPhase f phase with cache := cache' } where
  attended g x hx := by
    obtain ⟨y, hy, hsame⟩ : ∃ y, s.flights[g]? = some y ∧ x.leader = y.leader ∧
        (y.phase.isLanded = true → x.phase.isLanded = true) := by
      unfold System.setPhase at hx
      rw [List.getElem?_modify] at hx
      by_cases hg : f = g
      · subst hg
        rw [hf] at hx
        obtain rfl : { fl with phase } = x := by simpa using hx
        exact ⟨fl, hf, rfl, hlanded⟩
      · exact ⟨x, by simpa [hg] using hx, rfl, id⟩
    obtain ⟨hleader, hstill⟩ := hsame
    obtain ⟨c, hc, hstage⟩ := h.attended g y hy
    exact ⟨c, hleader ▸ hc, hstage.imp_right (Or.imp_right (And.imp_left hstill))⟩
  relooks i c hc hstage := by
    unfold System.setPhase
    rw [keys_modify]
    exact h.relooks i c hc hstage

/-- A caller that still looks or waits leads no flight. -/
theorem IsAttributed.leader_ne (h : IsAttributed svc s) {i : Nat} {c : Caller ρ α}
    (hc : s.callers[i]? = some c) (hopen : c.stage.isOpen = true)
    (hidle : ∀ f, c.stage ≠ .leading f) {f : Nat} {fl : Flight ρ α}
    (hf : s.flights[f]? = some fl) : fl.leader ≠ i := by
  rintro rfl
  obtain ⟨d, hd, hstage⟩ := h.attended f fl hf
  obtain rfl := Option.some.inj (hc.symm.trans hd)
  rcases hstage with hleads | hcancelled | ⟨-, result, hreturned⟩
  · exact hidle f hleads
  · rw [hcancelled] at hopen
    exact Bool.false_ne_true hopen
  · rw [hreturned] at hopen
    exact Bool.false_ne_true hopen

theorem IsAttributed.look (h : IsAttributed svc s) (hs : IsSound svc s) {i : Nat}
    {c : Caller ρ α} {waited : Bool} (hc : s.callers[i]? = some c)
    (hstage : c.stage = .looking waited) : IsAttributed svc (svc.look s i c.request waited) := by
  have hnone : ∀ (f : Nat) (fl : Flight ρ α), s.flights[f]? = some fl → fl.leader ≠ i :=
    fun f fl hf => h.leader_ne hc (by rw [hstage]; rfl) (by rw [hstage]; nofun) hf
  cases hfind : s.cache.entries.find? (svc.key c.request) with
  | none =>
    rw [look_of_vacant hfind]
    have hmoved : IsAttributed svc (s.setStage i (.leading s.cache.nextFlight)) :=
      h.setStage hc (fun f fl hf hi => absurd hi (hnone f fl hf)) nofun
    refine ⟨fun f fl hf => ?_, fun j d hd hlooks => ?_⟩
    · rcases (exists_append_iff (p := (· = fl))).1 ⟨fl, hf, rfl⟩ with ⟨x, hx, rfl⟩ | ⟨rfl, rfl⟩
      · exact hmoved.attended f x hx
      · exact ⟨_, getElem?_setStage hc _, .inl (congrArg Stage.leading hs.agrees.numbered)⟩
    · have hkeys : keys svc (svc.openFlight s i c.request).flights =
          keys svc s.flights ++ [svc.key c.request] := List.map_append
      exact hkeys ▸ List.mem_append_left _ (hmoved.relooks j d hd hlooks)
  | some entry =>
    cases entry with
    | ready result =>
      have hmoved : IsAttributed svc (s.setStage i (.returned result)) :=
        h.setStage hc (fun f fl hf hi => absurd hi (hnone f fl hf)) nofun
      exact look_of_ready hfind ▸ ⟨hmoved.attended, hmoved.relooks⟩
    | pending f =>
      have hmoved : IsAttributed svc (s.setStage i (.waiting f false)) :=
        h.setStage hc (fun f fl hf hi => absurd hi (hnone f fl hf)) nofun
      exact look_of_pending hfind ▸ ⟨hmoved.attended, hmoved.relooks⟩

theorem stage_of_notify_looks {f : Nat} {c : Caller ρ α} {waited : Bool}
    (h : (c.notify f).stage = .looking waited) : c.stage = .looking waited := by
  unfold Caller.notify at h
  split at h
  · next g b _ hstage =>
    split at h
    · exact absurd h (by simp)
    · exact h
  · exact h

theorem IsAttributed.land (h : IsAttributed svc s) {f : Nat} {fl : Flight ρ α} {result : α}
    (hf : s.flights[f]? = some fl) : IsAttributed svc (s.land f result) := by
  have hmoved : IsAttributed svc { s.setPhase f (.landed result) with cache := s.cache.land f } :=
    h.setPhase hf fun _ => rfl
  refine ⟨fun g x hx => ?_, fun i d hd hlooks => ?_⟩
  · obtain ⟨c, hc, hstage⟩ := hmoved.attended g x hx
    have hsame : c.notify f = c := by
      refine notify_of_not_waiting fun k b hwaits => ?_
      rw [hwaits] at hstage
      simp at hstage
    have hc' : (s.callers.map (·.notify f))[x.leader]? = some (c.notify f) :=
      (List.getElem?_map ..).trans (congrArg (Option.map (·.notify f)) hc)
    exact ⟨c, hc'.trans (congrArg some hsame), hstage⟩
  · obtain ⟨c, hc, rfl⟩ := Option.map_eq_some_iff.1 ((List.getElem?_map ..).symm.trans hd)
    rw [request_notify]
    exact hmoved.relooks i c hc (stage_of_notify_looks hlooks)

theorem Step.isAttributed (h : Step svc s a t) (hs : IsSound svc s) (hattr : IsAttributed svc s) :
    IsAttributed svc t := by
  cases h with
  | call mode request =>
    refine ⟨fun f fl hf => ?_, fun i c hc hstage => ?_⟩
    · obtain ⟨c, hc, hstage⟩ := hattr.attended f fl hf
      have hlt := (List.getElem?_eq_some_iff.1 hc).1
      exact ⟨c, by rw [List.getElem?_append_left hlt, hc], hstage⟩
    · rw [List.getElem?_append] at hc
      split at hc
      · exact hattr.relooks i c hc hstage
      · obtain rfl := List.mem_singleton.1 (List.mem_of_getElem? hc)
        exact absurd hstage (by simp)
  | look hc hstage => exact hattr.look hs hc hstage
  | takeOff hf hphase | commit hf hphase =>
    refine hattr.setPhase hf fun hlanded => ?_
    rw [hphase] at hlanded
    exact absurd hlanded Bool.false_ne_true
  | land hf => exact hattr.land hf
  | @wake i f c notified hc hstage | @timeOut i f c notified hc hstage =>
    refine hattr.setStage hc (fun g fl hg hi => absurd hi ?_) fun _ => ?_
    · exact hattr.leader_ne hc (by rw [hstage]; rfl) (by rw [hstage]; nofun) hg
    · obtain ⟨fl, hf, hkey, -⟩ := (hs.placed i c hc).waits f notified hstage
      exact hkey ▸ mem_keys_of_getElem? hf
  | @deliver i f c fl result hc hstage hf hphase =>
    refine hattr.setStage hc (fun g x hg hi => .inr (.inr ⟨?_, result, rfl⟩)) nofun
    obtain ⟨d, hd, hleads⟩ := hattr.attended g x hg
    obtain rfl := Option.some.inj (hc.symm.trans (hi ▸ hd))
    rw [hstage] at hleads
    obtain rfl : f = g := by simpa using hleads
    obtain rfl := Option.some.inj (hf.symm.trans hg)
    rw [hphase]
    rfl
  | cancel hc => exact hattr.setStage hc (fun _ _ _ _ => .inr (.inl rfl)) nofun
  | invalidate | clear => exact ⟨hattr.attended, hattr.relooks⟩

theorem isAttributed_empty : IsAttributed svc {} := ⟨by simp, by simp⟩

theorem isAttributed_of_run {as : List (Action ρ)} (hrun : svc.run {} as = some s) :
    IsAttributed svc s := by
  have hboth : IsSound svc s ∧ IsAttributed svc s := by
    refine run_induction (p := fun s => IsSound svc s ∧ IsAttributed svc s) hrun
      ⟨isSound_empty, isAttributed_empty⟩ ?_
    rintro a - s t ⟨hs, hattr⟩ hstep
    exact ⟨hs.step hstep, hstep.isAttributed hs hattr⟩
  exact hboth.2

end Filing.SingleFlight
