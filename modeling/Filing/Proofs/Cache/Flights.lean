import Filing.Proofs.Cache.Steps
import Filing.Proofs.KeyMaps

/-!
# What holds between the steps of callers

Whatever the order of the steps, cache, callers and flights fit together: the cache shows a flight
under a key exactly while the flight runs, a result in it was committed by some flight, and every
caller that waits, leads or has returned does so for a flight of its own key. This is shown once for
each step, and so it holds after every run.
-/

namespace Filing.SingleFlight

variable {ρ α : Type}

/-! ## Flights and their phases -/

namespace Phase

/-- The result is still to come. -/
def isRunning : Phase α → Bool
  | .boarding => true
  | .reading _ => true
  | .committed _ => false
  | .landed _ => false

/-- The result, once it is committed. -/
def result? : Phase α → Option α
  | .boarding => none
  | .reading _ => none
  | .committed result => some result
  | .landed result => some result

/-- Those who wait for the flight may go on. -/
def isLanded : Phase α → Bool
  | .landed _ => true
  | _ => false

theorem isRunning_iff {p : Phase α} : p.isRunning = true ↔ p.result? = none := by
  cases p <;> simp [isRunning, result?]

theorem isLanded_of_isRunning {p : Phase α} (h : p.isRunning = true) : p.isLanded = false := by
  cases p with
  | landed => exact absurd h Bool.false_ne_true
  | _ => rfl

end Phase

variable (svc : Service ρ α)

/-- A flight for a key whose result is still to come. -/
def Runs (flights : List (Flight ρ α)) (key : String) (f : Nat) : Prop :=
  ∃ fl, flights[f]? = some fl ∧ svc.key fl.request = key ∧ fl.phase.isRunning = true

/-- A flight that committed a result for a key. -/
def Yields (flights : List (Flight ρ α)) (key : String) (f : Nat) (result : α) : Prop :=
  ∃ fl, flights[f]? = some fl ∧ svc.key fl.request = key ∧ fl.phase.result? = some result

/-- A flight that has landed. -/
def HasLanded (flights : List (Flight ρ α)) (f : Nat) : Prop :=
  ∃ fl, flights[f]? = some fl ∧ fl.phase.isLanded = true

variable {svc} {flights : List (Flight ρ α)} {callers : List (Caller ρ α)} {cache : Cache α}

theorem exists_iff {f : Nat} {fl : Flight ρ α} (hf : flights[f]? = some fl)
    {p : Flight ρ α → Prop} : (∃ x, flights[f]? = some x ∧ p x) ↔ p fl := by
  simp [hf]

theorem exists_modify_iff {f g : Nat} {fl : Flight ρ α} (hf : flights[f]? = some fl)
    {phase : Phase α} {p : Flight ρ α → Prop} :
    (∃ x, (flights.modify f fun fl => { fl with phase })[g]? = some x ∧ p x) ↔
      if g = f then p { fl with phase } else ∃ x, flights[g]? = some x ∧ p x := by
  rw [List.getElem?_modify]
  by_cases hg : g = f
  · subst hg
    simp [hf]
  · simp [hg, Ne.symm hg]

theorem exists_append_iff {g : Nat} {fl : Flight ρ α} {p : Flight ρ α → Prop} :
    (∃ x, (flights ++ [fl])[g]? = some x ∧ p x) ↔
      (∃ x, flights[g]? = some x ∧ p x) ∨ g = flights.length ∧ p fl := by
  rcases Nat.lt_trichotomy g flights.length with hlt | rfl | hgt
  · rw [List.getElem?_append_left hlt]
    simp [Nat.ne_of_lt hlt]
  · simp
  · have hnone : (flights ++ [fl])[g]? = none := by
      rw [List.getElem?_eq_none_iff, List.length_append]
      exact hgt
    have hold : flights[g]? = none := List.getElem?_eq_none_iff.2 (Nat.le_of_lt hgt)
    simp [hnone, hold, Nat.ne_of_gt hgt]

/-! ## The cache and the flights -/

/-- The cache shows what the flights have come to. -/
structure Agrees (svc : Service ρ α) (cache : Cache α) (flights : List (Flight ρ α)) : Prop where
  numbered : cache.nextFlight = flights.length
  pending : ∀ key f, cache.entries.find? key = some (.pending f) ↔ Runs svc flights key f
  ready : ∀ key result, cache.entries.find? key = some (.ready result) →
    ∃ f, Yields svc flights key f result
  landed : ∀ f, f ∈ cache.landed ↔ HasLanded flights f

namespace Agrees

theorem runs_unique (h : Agrees svc cache flights) {key : String} {f g : Nat}
    (hf : Runs svc flights key f) (hg : Runs svc flights key g) : f = g := by
  have heq := ((h.pending key f).2 hf).symm.trans ((h.pending key g).2 hg)
  exact CacheEntry.pending.inj (Option.some.inj heq)

/-- The counters do not matter. -/
theorem congr {cache' : Cache α} (h : Agrees svc cache flights)
    (hentries : cache'.entries = cache.entries) (hlanded : cache'.landed = cache.landed)
    (hnext : cache'.nextFlight = cache.nextFlight) : Agrees svc cache' flights where
  numbered := hnext ▸ h.numbered
  pending := hentries ▸ h.pending
  ready := hentries ▸ h.ready
  landed := hlanded ▸ h.landed

/-- Results may be forgotten at any time. -/
theorem forget {cache' : Cache α} (h : Agrees svc cache flights)
    (hpending : ∀ key f, cache'.entries.find? key = some (.pending f) ↔
      cache.entries.find? key = some (.pending f))
    (hready : ∀ key result, cache'.entries.find? key = some (.ready result) →
      cache.entries.find? key = some (.ready result))
    (hlanded : cache'.landed = cache.landed) (hnext : cache'.nextFlight = cache.nextFlight) :
    Agrees svc cache' flights where
  numbered := hnext ▸ h.numbered
  pending key f := (hpending key f).trans (h.pending key f)
  ready key result hfind := h.ready key result (hready key result hfind)
  landed := hlanded ▸ h.landed

/-- A flight is opened for a key under which there is nothing. -/
theorem lead (h : Agrees svc cache flights) {request : ρ} {i : Nat}
    (hvacant : cache.entries.find? (svc.key request) = none) :
    Agrees svc { cache with
      entries := cache.entries.insert (svc.key request) (.pending cache.nextFlight)
      nextFlight := cache.nextFlight + 1 } (flights ++ [⟨request, i, .boarding⟩]) where
  numbered := by rw [List.length_append, ← h.numbered]; rfl
  pending key f := by
    rw [Runs, exists_append_iff, KeyMap.find?_insert, h.numbered, ← Runs]
    by_cases hkey : key = svc.key request
    · subst hkey
      have hnone : ¬ Runs svc flights (svc.key request) f := by
        rw [← h.pending, hvacant]
        simp
      rw [if_pos rfl, or_iff_right hnone]
      simp [Phase.isRunning, eq_comm]
    · rw [if_neg hkey, h.pending, iff_self_or]
      rintro ⟨-, heq, -⟩
      exact absurd heq.symm hkey
  ready key result hfind := by
    rw [KeyMap.find?_insert] at hfind
    split at hfind
    · exact absurd (Option.some.inj hfind) (by simp)
    · obtain ⟨f, hyields⟩ := h.ready key result hfind
      exact ⟨f, exists_append_iff.2 (.inl hyields)⟩
  landed f := by
    unfold HasLanded
    rw [exists_append_iff, h.landed, HasLanded, iff_self_or]
    rintro ⟨-, hlanded⟩
    exact absurd hlanded (by simp [Phase.isLanded])

/-- A flight moves on without a change of its result. -/
theorem setPhase {cache' : Cache α} (h : Agrees svc cache flights) {f : Nat} {fl : Flight ρ α}
    (hf : flights[f]? = some fl) {phase : Phase α} (hresult : phase.result? = fl.phase.result?)
    (hentries : cache'.entries = cache.entries) (hnext : cache'.nextFlight = cache.nextFlight)
    (hlanded : ∀ g, g ∈ cache'.landed ↔ if g = f then phase.isLanded = true else
      g ∈ cache.landed) :
    Agrees svc cache' (flights.modify f fun fl => { fl with phase }) where
  numbered := by rw [hnext, h.numbered, List.length_modify]
  pending key g := by
    unfold Runs
    rw [hentries, h.pending, exists_modify_iff hf]
    split
    · next hg =>
      subst hg
      rw [Runs, exists_iff hf, Phase.isRunning_iff, Phase.isRunning_iff, hresult]
    · rfl
  ready key result hfind := by
    obtain ⟨g, hyields⟩ := h.ready key result (hentries ▸ hfind)
    refine ⟨g, (exists_modify_iff hf).2 ?_⟩
    split
    · next hg =>
      subst hg
      obtain ⟨hkey, hr⟩ := (exists_iff hf).1 hyields
      exact ⟨hkey, hresult.trans hr⟩
    · exact hyields
  landed g := by
    unfold HasLanded
    rw [hlanded, exists_modify_iff hf]
    split
    · rfl
    · exact h.landed g

/-- A flight stores its result in the place of its own entry. -/
theorem commit (h : Agrees svc cache flights) {f : Nat} {fl : Flight ρ α}
    (hf : flights[f]? = some fl) (hrunning : fl.phase.isRunning = true) (result : α) :
    Agrees svc (cache.commit (svc.key fl.request) result)
      (flights.modify f fun fl => { fl with phase := .committed result }) where
  numbered := by rw [List.length_modify]; exact h.numbered
  pending key g := by
    have hruns : Runs svc flights (svc.key fl.request) f := ⟨fl, hf, rfl, hrunning⟩
    unfold Runs Cache.commit
    rw [exists_modify_iff hf, KeyMap.find?_insert]
    by_cases hkey : key = svc.key fl.request
    · subst hkey
      -- The entry was the flight's own, so no other flight runs for the key.
      rw [if_pos rfl]
      refine iff_of_false (by simp) fun hg => ?_
      split at hg
      · exact absurd hg.2 (by simp [Phase.isRunning])
      · next hne => exact hne (h.runs_unique hg hruns)
    · rw [if_neg hkey, h.pending]
      split
      · next hg =>
        subst hg
        rw [Runs, exists_iff hf]
        exact iff_of_false (fun hg => hkey hg.1.symm) fun hg => hkey hg.1.symm
      · rfl
  ready key r hfind := by
    unfold Cache.commit at hfind
    rw [KeyMap.find?_insert] at hfind
    split at hfind
    · next hkey =>
      obtain rfl : result = r := by simpa using hfind
      exact ⟨f, (exists_modify_iff hf).2 (by simp [hkey, Phase.result?])⟩
    · obtain ⟨g, hyields⟩ := h.ready key r hfind
      refine ⟨g, (exists_modify_iff hf).2 ?_⟩
      split
      · next hg =>
        subst hg
        obtain ⟨-, hr⟩ := (exists_iff hf).1 hyields
        rw [Phase.isRunning_iff.1 hrunning] at hr
        exact absurd hr (by simp)
      · exact hyields
  landed g := by
    unfold HasLanded
    rw [exists_modify_iff hf]
    refine (h.landed g).trans ?_
    split
    · next hg =>
      subst hg
      rw [HasLanded, exists_iff hf, Phase.isLanded_of_isRunning hrunning]
      simp [Phase.isLanded]
    · rfl

end Agrees

/-! ## Callers and their flights -/

theorem request_notify (f : Nat) (c : Caller ρ α) : (c.notify f).request = c.request := by
  unfold Caller.notify
  split
  · split <;> rfl
  · rfl

/-- A caller waits for, leads or has the result of a flight for its own key; when it waits as a task,
the landing does not go unnoticed. -/
structure Caller.IsPlaced (svc : Service ρ α) (flights : List (Flight ρ α)) (i : Nat)
    (c : Caller ρ α) : Prop where
  waits : ∀ f notified, c.stage = .waiting f notified →
    ∃ fl, flights[f]? = some fl ∧ svc.key fl.request = svc.key c.request ∧
      (c.mode = .async → fl.phase.isLanded = true → notified = true)
  leads : ∀ f, c.stage = .leading f →
    ∃ fl, flights[f]? = some fl ∧ fl.request = c.request ∧ fl.leader = i
  returns : ∀ result, c.stage = .returned result →
    ∃ f, Yields svc flights (svc.key c.request) f result

/-- A flight reads what the caller asked for that leads it. -/
structure Flight.IsLed (svc : Service ρ α) (callers : List (Caller ρ α)) (fl : Flight ρ α) :
    Prop where
  leader : callers[fl.leader]?.map (·.request) = some fl.request
  read : ∀ result, fl.phase.result? = some result → ∃ number, result = svc.read fl.request number

/-- What holds between any two steps. -/
structure IsSound (svc : Service ρ α) (s : System ρ α) : Prop where
  agrees : Agrees svc s.cache s.flights
  placed : ∀ (i : Nat) (c : Caller ρ α), s.callers[i]? = some c → c.IsPlaced svc s.flights i
  led : ∀ (f : Nat) (fl : Flight ρ α), s.flights[f]? = some fl → fl.IsLed svc s.callers

/-- Flights stay and move on, and none of them loses its result. -/
def MovesOn (flights flights' : List (Flight ρ α)) : Prop :=
  ∀ (f : Nat) (fl : Flight ρ α), flights[f]? = some fl →
    ∃ phase, flights'[f]? = some { fl with phase } ∧
      ∀ result, fl.phase.result? = some result → phase.result? = some result

theorem movesOn_append (fl : Flight ρ α) : MovesOn flights (flights ++ [fl]) := by
  intro f x hx
  refine ⟨x.phase, ?_, fun _ => id⟩
  rw [List.getElem?_append_left (List.getElem?_eq_some_iff.1 hx).1, hx]

theorem movesOn_modify {f : Nat} {fl : Flight ρ α} (hf : flights[f]? = some fl) {phase : Phase α}
    (hkeep : ∀ result, fl.phase.result? = some result → phase.result? = some result) :
    MovesOn flights (flights.modify f fun fl => { fl with phase }) := by
  intro g x hx
  rw [List.getElem?_modify, hx]
  by_cases hg : f = g
  · subst hg
    obtain rfl := Option.some.inj (hf.symm.trans hx)
    exact ⟨phase, by simp, hkeep⟩
  · exact ⟨x.phase, by simp [hg], fun _ => id⟩

theorem MovesOn.yields {flights' : List (Flight ρ α)} (h : MovesOn flights flights') {key : String}
    {f : Nat} {result : α} (hyields : Yields svc flights key f result) :
    Yields svc flights' key f result := by
  obtain ⟨fl, hf, hkey, hresult⟩ := hyields
  obtain ⟨phase, hf', hkeep⟩ := h f fl hf
  exact ⟨_, hf', hkey, hkeep result hresult⟩

namespace Caller.IsPlaced

variable {flights' : List (Flight ρ α)} {i : Nat} {c : Caller ρ α}

/-- A caller keeps its place as long as the flight that it waits for does not land. -/
theorem mono (h : c.IsPlaced svc flights i) (hmoves : MovesOn flights flights')
    (hquiet : ∀ f notified, c.stage = .waiting f notified → c.mode = .async →
      HasLanded flights' f → HasLanded flights f) : c.IsPlaced svc flights' i where
  waits f notified hstage := by
    obtain ⟨fl, hf, hkey, hnotified⟩ := h.waits f notified hstage
    obtain ⟨phase, hf', -⟩ := hmoves f fl hf
    refine ⟨_, hf', hkey, fun hmode hlanded => hnotified hmode ?_⟩
    exact (exists_iff hf).1 (hquiet f notified hstage hmode ⟨_, hf', hlanded⟩)
  leads f hstage := by
    obtain ⟨fl, hf, hrequest, hleader⟩ := h.leads f hstage
    obtain ⟨phase, hf', -⟩ := hmoves f fl hf
    exact ⟨_, hf', hrequest, hleader⟩
  returns result hstage := by
    obtain ⟨f, hyields⟩ := h.returns result hstage
    exact ⟨f, hmoves.yields hyields⟩

/-- A caller that is notified of the landing keeps its place, too. -/
theorem notify (h : c.IsPlaced svc flights i) (hmoves : MovesOn flights flights') {f : Nat}
    (hquiet : ∀ g, g ≠ f → HasLanded flights' g → HasLanded flights g) :
    (c.notify f).IsPlaced svc flights' i := by
  obtain ⟨mode, request, stage⟩ := c
  unfold Caller.notify
  split
  · next g notified hmode hstage =>
    dsimp only at hmode hstage
    subst hmode hstage
    split
    · next hg =>
      obtain ⟨fl, hfl, hkey, -⟩ := h.waits g notified rfl
      obtain ⟨phase, hfl', -⟩ := hmoves g fl hfl
      refine ⟨fun x b hstage => ?_, nofun, nofun⟩
      obtain ⟨rfl, rfl⟩ := Stage.waiting.inj hstage
      exact ⟨_, hfl', hkey, fun _ _ => rfl⟩
    · next hg =>
      refine h.mono hmoves fun x b hstage _ => ?_
      obtain ⟨rfl, -⟩ := Stage.waiting.inj hstage
      exact hquiet _ hg
  · next hnot =>
    exact h.mono hmoves fun x b hstage hmode => absurd hstage (hnot x b hmode)

end Caller.IsPlaced

/-! ## Steps -/

namespace IsSound

variable {s : System ρ α} {i f : Nat} {c : Caller ρ α} {fl : Flight ρ α}

theorem withCache {cache' : Cache α} (h : IsSound svc s) (hagrees : Agrees svc cache' s.flights) :
    IsSound svc { s with cache := cache' } :=
  ⟨hagrees, h.placed, h.led⟩

/-- A caller may move to any stage that suits the flights. -/
theorem setStage (h : IsSound svc s) (hc : s.callers[i]? = some c) {stage : Stage α}
    (hplaced : { c with stage }.IsPlaced svc s.flights i) : IsSound svc (s.setStage i stage) where
  agrees := h.agrees
  placed j x hx := by
    unfold System.setStage at hx
    rw [List.getElem?_modify] at hx
    by_cases hj : i = j
    · subst hj
      rw [hc] at hx
      obtain rfl : { c with stage } = x := by simpa using hx
      exact hplaced
    · refine h.placed j x ?_
      simpa [hj] using hx
  led f fl hf := by
    obtain ⟨hleader, hread⟩ := h.led f fl hf
    refine ⟨?_, hread⟩
    unfold System.setStage
    rw [List.getElem?_modify, ← hleader]
    cases s.callers[fl.leader]? <;> simp [apply_ite]

theorem call (h : IsSound svc s) (mode : Mode) (request : ρ) :
    IsSound svc { s with callers := s.callers ++ [⟨mode, request, .looking false⟩] } where
  agrees := h.agrees
  placed j x hx := by
    rw [List.getElem?_append] at hx
    split at hx
    · exact h.placed j x hx
    · obtain rfl := List.mem_singleton.1 (List.mem_of_getElem? hx)
      exact ⟨nofun, nofun, nofun⟩
  led f fl hf := by
    obtain ⟨hleader, hread⟩ := h.led f fl hf
    refine ⟨?_, hread⟩
    obtain ⟨c, hc, hrequest⟩ := Option.map_eq_some_iff.1 hleader
    have hlt := (List.getElem?_eq_some_iff.1 hc).1
    rw [List.getElem?_append_left hlt, hleader]

/-- A caller that finds nothing opens a flight. -/
theorem openFlight (h : IsSound svc s) (hc : s.callers[i]? = some c)
    (hvacant : s.cache.entries.find? (svc.key c.request) = none) :
    IsSound svc (svc.openFlight s i c.request) where
  agrees := h.agrees.lead hvacant
  placed j x hx := by
    refine (h.placed j x hx).mono (movesOn_append _) fun f _ _ _ hlanded => ?_
    exact (exists_append_iff.1 hlanded).resolve_right fun hnew =>
      absurd hnew.2 (by simp [Phase.isLanded])
  led f fl hf := by
    unfold Service.openFlight at hf
    rw [List.getElem?_append] at hf
    split at hf
    · exact h.led f fl hf
    · obtain rfl := List.mem_singleton.1 (List.mem_of_getElem? hf)
      exact ⟨by simp [Service.openFlight, hc], nofun⟩

theorem led_modify {phase : Phase α} (h : IsSound svc s) (hf : s.flights[f]? = some fl)
    (hread : ∀ result, phase.result? = some result →
      ∃ number, result = svc.read fl.request number) (g : Nat) (x : Flight ρ α)
    (hx : (s.flights.modify f fun fl => { fl with phase })[g]? = some x) :
    x.IsLed svc s.callers := by
  rw [List.getElem?_modify] at hx
  by_cases hg : f = g
  · subst hg
    rw [hf] at hx
    obtain rfl : { fl with phase } = x := by simpa using hx
    exact ⟨(h.led f fl hf).leader, hread⟩
  · refine h.led g x ?_
    simpa [hg] using hx

/-- A flight moves on before it lands. -/
theorem setPhase {cache' : Cache α} {phase : Phase α} (h : IsSound svc s)
    (hf : s.flights[f]? = some fl) (hrunning : fl.phase.isRunning = true)
    (hlanded : phase.isLanded = false)
    (hread : ∀ result, phase.result? = some result →
      ∃ number, result = svc.read fl.request number)
    (hagrees : Agrees svc cache' (s.flights.modify f fun fl => { fl with phase })) :
    IsSound svc { s.setPhase f phase with cache := cache' } where
  agrees := hagrees
  placed j x hx := by
    refine (h.placed j x hx).mono (movesOn_modify hf fun result hresult => ?_) fun g _ _ _ hg => ?_
    · rw [Phase.isRunning_iff.1 hrunning] at hresult
      exact absurd hresult (by simp)
    · have hnew := (exists_modify_iff hf).1 hg
      split at hnew
      · exact absurd hnew (by simp [hlanded])
      · exact hnew
  led := h.led_modify hf hread

/-- A flight lands, and those who wait for it are notified. -/
theorem land {result : α} (h : IsSound svc s) (hf : s.flights[f]? = some fl)
    (hphase : fl.phase = .committed result) :
    IsSound svc (s.land f result) where
  agrees := by
    refine h.agrees.setPhase hf (by rw [hphase]; rfl) rfl rfl fun g => ?_
    refine (List.mem_cons (b := f)).trans ?_
    split
    · next hg => simp [hg, Phase.isLanded]
    · next hg => simp [hg]
  placed j x hx := by
    obtain ⟨c, hc, rfl⟩ := Option.map_eq_some_iff.1 ((List.getElem?_map ..).symm.trans hx)
    refine (h.placed j c hc).notify (movesOn_modify hf ?_) fun g hg hlanded => ?_
    · rw [hphase]
      exact fun _ => id
    · have hnew := (exists_modify_iff hf).1 hlanded
      rwa [if_neg hg] at hnew
  led g x hx := by
    have hread : ∀ r, (Phase.landed result).result? = some r →
        ∃ number, r = svc.read fl.request number := by
      intro r hr
      exact (h.led f fl hf).read r (by rw [hphase]; exact hr)
    obtain ⟨hleader, hread⟩ := h.led_modify hf hread g x hx
    refine ⟨?_, hread⟩
    unfold System.land
    rw [List.getElem?_map, ← hleader]
    cases s.callers[x.leader]? with
    | none => rfl
    | some c => exact congrArg some (request_notify f c)

theorem look {waited : Bool} (h : IsSound svc s) (hc : s.callers[i]? = some c) :
    IsSound svc (svc.look s i c.request waited) := by
  cases hfind : s.cache.entries.find? (svc.key c.request) with
  | none =>
    rw [look_of_vacant hfind]
    refine (h.openFlight hc hfind).setStage hc ⟨nofun, fun f hstage => ?_, nofun⟩
    obtain rfl := Stage.leading.inj hstage
    rw [h.agrees.numbered]
    exact ⟨_, List.getElem?_concat_length, rfl, rfl⟩
  | some entry =>
    cases entry with
    | ready result =>
      obtain ⟨f, hyields⟩ := h.agrees.ready _ _ hfind
      have hmoved : IsSound svc (s.setStage i (.returned result)) := by
        refine h.setStage hc ⟨nofun, nofun, fun r hstage => ?_⟩
        obtain rfl := Stage.returned.inj hstage
        exact ⟨f, hyields⟩
      exact look_of_ready hfind ▸ hmoved.withCache (h.agrees.congr rfl rfl rfl)
    | pending f =>
      obtain ⟨fl, hf, hkey, hrunning⟩ := (h.agrees.pending _ _).1 hfind
      have hmoved : IsSound svc (s.setStage i (.waiting f false)) := by
        refine h.setStage hc ⟨fun g b hstage => ?_, nofun, nofun⟩
        obtain ⟨rfl, rfl⟩ := Stage.waiting.inj hstage
        refine ⟨fl, hf, hkey, fun _ hlanded => ?_⟩
        exact absurd hlanded (Bool.eq_false_iff.1 (Phase.isLanded_of_isRunning hrunning))
      exact look_of_pending hfind ▸ hmoved.withCache (h.agrees.congr rfl rfl rfl)

theorem invalidate (h : IsSound svc s) (key : String) :
    IsSound svc { s with cache := (s.cache.invalidate key).1 } := by
  refine h.withCache ?_
  unfold Cache.invalidate
  split
  · next result hready =>
    refine h.agrees.forget (fun k f => ?_) (fun k r hfind => ?_) rfl rfl
    · rw [KeyMap.find?_erase]
      split
      · next hk => simp [hk, hready]
      · rfl
    · rw [KeyMap.find?_erase] at hfind
      split at hfind
      · exact absurd hfind (by simp)
      · exact hfind
  · exact h.agrees

theorem clear (h : IsSound svc s) : IsSound svc { s with cache := s.cache.clear } := by
  have hfind : ∀ key entry, s.cache.clear.entries.find? key = some entry ↔
      s.cache.entries.find? key = some entry ∧ Cache.isReady entry = false := by
    intro key entry
    rw [← KeyMap.mem_entries_iff, ← KeyMap.mem_entries_iff]
    refine List.mem_filter.trans (and_congr_right' ?_)
    rw [Bool.not_eq_true']
  refine h.withCache (h.agrees.forget (fun key f => ?_) (fun key result => ?_) rfl rfl)
  · rw [hfind]
    exact and_iff_left rfl
  · rw [hfind]
    exact And.left

/-- Each step keeps what holds between steps. -/
theorem step {s' : System ρ α} {a : Action ρ} (h : IsSound svc s) (hstep : Step svc s a s') :
    IsSound svc s' := by
  cases hstep with
  | call mode request => exact h.call mode request
  | look hc hstage => exact h.look hc
  | @takeOff f fl hf hphase =>
    refine h.setPhase hf (by rw [hphase]; rfl) rfl nofun ?_
    refine h.agrees.setPhase hf (by rw [hphase]; rfl) rfl rfl fun g => ?_
    split
    · next hg =>
      subst hg
      refine (h.agrees.landed g).trans ?_
      rw [HasLanded, exists_iff hf, hphase]
      rfl
    · rfl
  | @commit f fl number hf hphase =>
    have hrunning : fl.phase.isRunning = true := by rw [hphase]; rfl
    refine h.setPhase hf hrunning rfl (fun result hresult => ?_) (h.agrees.commit hf hrunning _)
    exact ⟨number, (Option.some.inj hresult).symm⟩
  | land hf hphase => exact h.land hf hphase
  | wake hc | timeOut hc | cancel hc => exact h.setStage hc ⟨nofun, nofun, nofun⟩
  | @deliver i f c fl result hc hstage hf hphase =>
    refine h.setStage hc ⟨nofun, nofun, fun r hr => ?_⟩
    obtain rfl := Stage.returned.inj hr
    obtain ⟨x, hx, hrequest, -⟩ := (h.placed i c hc).leads f hstage
    obtain rfl := Option.some.inj (hf.symm.trans hx)
    exact ⟨f, fl, hf, congrArg svc.key hrequest, by rw [hphase]; rfl⟩
  | invalidate request => exact h.invalidate _
  | clear => exact h.clear

end IsSound

theorem isSound_empty : IsSound svc {} where
  agrees := ⟨rfl, by simp [Runs], by simp, by simp [HasLanded]⟩
  placed := by simp
  led := by simp

/-- What holds between steps holds after every run. -/
theorem IsSound.run {s s' : System ρ α} {as : List (Action ρ)} (h : IsSound svc s)
    (hrun : svc.run s as = some s') : IsSound svc s' :=
  run_induction hrun h fun _ _ _ _ ht hstep => ht.step hstep

end Filing.SingleFlight
