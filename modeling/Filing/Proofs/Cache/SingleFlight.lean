import Filing.Proofs.Cache.Landing
import Mathlib.Data.List.Count
import Mathlib.Data.List.Nodup

/-!
# One reading for all callers

After every run of callers, in whatever order their steps came, at most one flight runs for a key,
and nobody waits for a flight that does not land. As long as no result is forgotten, there is only
one flight for a key at all, and every caller that is not cancelled gets its result.
-/

namespace Filing.SingleFlight

variable {ρ α : Type} {svc : Service ρ α} {s s' : System ρ α}

/-! ## Counting readings -/

/-- The flight has begun to read. -/
def Phase.hasTakenOff : Phase α → Bool
  | .boarding => false
  | _ => true

theorem countP_modify {β : Type} {l : List β} {i : Nat} {b : β} (hi : l[i]? = some b) (p : β → Bool)
    (g : β → β) : (l.modify i g).countP p + (if p b then 1 else 0) =
      l.countP p + if p (g b) then 1 else 0 := by
  induction l generalizing i with
  | nil => exact absurd hi (by simp)
  | cons a l ih =>
    cases i with
    | zero =>
      obtain rfl : a = b := by simpa using hi
      rw [List.modify_zero_cons, List.countP_cons, List.countP_cons]
      omega
    | succ i =>
      have hrest := ih (by simpa using hi)
      rw [List.modify_succ_cons, List.countP_cons, List.countP_cons]
      omega

/-- The cache counts one reading for each flight that took off. -/
def CountsReadings (s : System ρ α) : Prop :=
  s.cache.parses = s.flights.countP (·.phase.hasTakenOff)

theorem CountsReadings.setPhase {f : Nat} {fl : Flight ρ α} (h : CountsReadings s)
    (hf : s.flights[f]? = some fl) (hoff : fl.phase.hasTakenOff = true) {phase : Phase α}
    (hstill : phase.hasTakenOff = true) :
    s.cache.parses = (s.setPhase f phase).flights.countP (·.phase.hasTakenOff) := by
  have hcount := countP_modify hf (fun fl => fl.phase.hasTakenOff) fun fl => { fl with phase }
  simp only [hoff, hstill, if_true] at hcount
  rw [h]
  exact (Nat.add_right_cancel hcount).symm

theorem Step.countsReadings {a : Action ρ} (hstep : Step svc s a s') (h : CountsReadings s) :
    CountsReadings s' := by
  cases hstep with
  | call | wake | timeOut | deliver | cancel | clear => exact h
  | invalidate =>
    unfold CountsReadings Cache.invalidate
    split <;> exact h
  | @look i c waited =>
    cases hfind : s.cache.entries.find? (svc.key c.request) with
    | none =>
      rw [look_of_vacant hfind]
      let opened : Flight ρ α := ⟨c.request, i, .boarding⟩
      have hcount : (s.flights ++ [opened]).countP (·.phase.hasTakenOff) =
          s.flights.countP (·.phase.hasTakenOff) := List.countP_append
      exact h.trans hcount.symm
    | some entry =>
      cases entry with
      | ready result => rw [look_of_ready hfind]; exact h
      | pending f => rw [look_of_pending hfind]; exact h
  | @takeOff f fl hf hphase =>
    have hcount := countP_modify hf (fun fl => fl.phase.hasTakenOff)
      fun fl => { fl with phase := .reading s.cache.takeOff.parses }
    rw [hphase] at hcount
    show s.cache.parses + 1 = _
    rw [h]
    exact hcount.symm
  | commit hf hphase => exact h.setPhase hf (by rw [hphase]; rfl) rfl
  | land hf hphase => exact h.setPhase hf (by rw [hphase]; rfl) rfl

/-! ## Runs that forget nothing -/

/-- A step after which the cache may know less. -/
def Action.forgets : Action ρ → Bool
  | .invalidate _ => true
  | .clear => true
  | _ => false

/-- The keys of the flights. -/
def keys (svc : Service ρ α) (flights : List (Flight ρ α)) : List String :=
  flights.map fun fl => svc.key fl.request

theorem keys_modify (flights : List (Flight ρ α)) (f : Nat) (phase : Phase α) :
    keys svc (flights.modify f fun fl => { fl with phase }) = keys svc flights := by
  refine List.ext_getElem? fun g => ?_
  unfold keys
  rw [List.getElem?_map, List.getElem?_map, List.getElem?_modify]
  cases flights[g]? with
  | none => rfl
  | some fl =>
    by_cases hg : f = g <;> simp [hg]

/-- No flight is forgotten, so there is one flight for a key at most. -/
structure IsRemembered (svc : Service ρ α) (s : System ρ α) : Prop where
  known : ∀ key ∈ keys svc s.flights, s.cache.entries.find? key ≠ none
  single : (keys svc s.flights).Nodup

theorem IsRemembered.setPhase {cache' : Cache α} (h : IsRemembered svc s) (f : Nat)
    (phase : Phase α) (hknown : ∀ key, s.cache.entries.find? key ≠ none →
      cache'.entries.find? key ≠ none) :
    IsRemembered svc { s.setPhase f phase with cache := cache' } where
  known key hkey := by
    unfold System.setPhase at hkey
    rw [keys_modify] at hkey
    exact hknown key (h.known key hkey)
  single := by
    unfold System.setPhase
    rw [keys_modify]
    exact h.single

theorem IsRemembered.openFlight {i : Nat} {request : ρ} (h : IsRemembered svc s)
    (hvacant : s.cache.entries.find? (svc.key request) = none) :
    IsRemembered svc (svc.openFlight s i request) := by
  have hkeys : keys svc (svc.openFlight s i request).flights =
      (keys svc s.flights).concat (svc.key request) := by
    simp [keys, Service.openFlight]
  have hnew : svc.key request ∉ keys svc s.flights := fun hmem => h.known _ hmem hvacant
  refine ⟨fun key hkey => ?_, hkeys ▸ h.single.concat hnew⟩
  show (s.cache.entries.insert _ _).find? key ≠ none
  rw [KeyMap.find?_insert]
  split
  · simp
  · next hne =>
    rw [hkeys, List.concat_eq_append, List.mem_append, List.mem_singleton] at hkey
    exact h.known key (hkey.resolve_right hne)

theorem Step.isRemembered {a : Action ρ} (hstep : Step svc s a s') (ha : a.forgets = false)
    (h : IsRemembered svc s) : IsRemembered svc s' := by
  cases hstep with
  | call | wake | timeOut | deliver | cancel => exact ⟨h.known, h.single⟩
  | invalidate | clear => exact absurd ha (by simp [Action.forgets])
  | @look i c waited =>
    cases hfind : s.cache.entries.find? (svc.key c.request) with
    | none =>
      have hopened : IsRemembered svc (svc.openFlight s i c.request) := h.openFlight hfind
      rw [look_of_vacant hfind]
      exact ⟨hopened.known, hopened.single⟩
    | some entry =>
      cases entry with
      | ready result => rw [look_of_ready hfind]; exact ⟨h.known, h.single⟩
      | pending f => rw [look_of_pending hfind]; exact ⟨h.known, h.single⟩
  | takeOff => exact h.setPhase _ _ fun _ => id
  | @land f fl result =>
    have hmoved : IsRemembered svc
        { s.setPhase f (.landed result) with cache := s.cache.land f } :=
      h.setPhase f _ fun _ => id
    exact ⟨hmoved.known, hmoved.single⟩
  | commit =>
    refine h.setPhase _ _ fun key hkey => ?_
    unfold Cache.commit
    rw [KeyMap.find?_insert]
    split
    · simp
    · exact hkey

theorem IsRemembered.eq_of_key (h : IsRemembered svc s) {f g : Nat} {fl gl : Flight ρ α}
    (hf : s.flights[f]? = some fl) (hg : s.flights[g]? = some gl)
    (hkey : svc.key fl.request = svc.key gl.request) : f = g := by
  have hlt : f < (keys svc s.flights).length := by
    rw [keys, List.length_map]
    exact (List.getElem?_eq_some_iff.1 hf).1
  refine (List.getElem?_inj hlt h.single).1 ?_
  rw [keys, List.getElem?_map, List.getElem?_map, hf, hg]
  exact congrArg some hkey

/-- Callers that return for the same key return the same. -/
theorem IsRemembered.eq_of_returned (h : IsRemembered svc s) (hs : IsSound svc s) {i j : Nat}
    {c d : Caller ρ α} {r q : α} (hc : s.callers[i]? = some c) (hd : s.callers[j]? = some d)
    (hkey : svc.key c.request = svc.key d.request) (hr : c.stage = .returned r)
    (hq : d.stage = .returned q) : r = q := by
  obtain ⟨f, fl, hf, hfkey, hfr⟩ := (hs.placed i c hc).returns r hr
  obtain ⟨g, gl, hg, hgkey, hgq⟩ := (hs.placed j d hd).returns q hq
  obtain rfl := h.eq_of_key hf hg (by rw [hfkey, hgkey, hkey])
  obtain rfl := Option.some.inj (hf.symm.trans hg)
  exact Option.some.inj (hfr.symm.trans hgq)

/-! ## What holds in every reachable state -/

/-- A key is read by one flight at a time, and nobody is forgotten. A flight runs until it has
committed its result. From then on nothing is read any more, but the flight has still to land for
those who wait, and meanwhile its result may be forgotten and another flight be opened. -/
structure IsSingleFlight (svc : Service ρ α) (s : System ρ α) : Prop where
  runs : ∀ key f g, Runs svc s.flights key f → Runs svc s.flights key g → f = g
  pending : ∀ key f, s.cache.entries.find? key = some (.pending f) ↔ Runs svc s.flights key f
  waits : ∀ (i : Nat) (c : Caller ρ α) (f : Nat) (notified : Bool), s.callers[i]? = some c →
    c.stage = .waiting f notified →
      ∃ fl : Flight ρ α, s.flights[f]? = some fl ∧ svc.key fl.request = svc.key c.request ∧
        (fl.phase.isLanded = true ∧ (svc.step s (.wake i)).isSome = true ∨
          fl.phase.isLanded = false ∧ WillLand svc s f)
  returns : ∀ (i : Nat) (c : Caller ρ α) (result : α), s.callers[i]? = some c →
    c.stage = .returned result →
      ∃ (f : Nat) (fl : Flight ρ α), s.flights[f]? = some fl ∧
        svc.key fl.request = svc.key c.request ∧ fl.phase.result? = some result ∧
        fl.IsLed svc s.callers
  counted : s.cache.parses = s.flights.countP (·.phase.hasTakenOff)

/-- A key is read once for all, and every caller that is not cancelled returns with the result if
only callers and flights go on working. -/
structure IsReadOnce (svc : Service ρ α) (s : System ρ α) : Prop where
  once : ∀ key, s.flights.countP (fun fl => svc.key fl.request = key) ≤ 1
  shared : ∀ (i j : Nat) (c d : Caller ρ α) (r q : α), s.callers[i]? = some c →
    s.callers[j]? = some d → svc.key c.request = svc.key d.request →
    c.stage = .returned r → d.stage = .returned q → r = q
  received : ∀ (i : Nat) (c : Caller ρ α), s.callers[i]? = some c → c.stage ≠ .cancelled →
    ∃ as s' result, (∀ a ∈ as, a.isWork = true) ∧ svc.run s as = some s' ∧
      s'.callers[i]? = some ⟨c.mode, c.request, .returned result⟩ ∧
      ∀ (j : Nat) (d : Caller ρ α) (r : α), s'.callers[j]? = some d →
        svc.key d.request = svc.key c.request → d.stage = .returned r → r = result

theorem IsSound.isSingleFlight (h : IsSound svc s) (hcounts : CountsReadings s) :
    IsSingleFlight svc s where
  runs _ _ _ hf hg := h.agrees.runs_unique hf hg
  pending := h.agrees.pending
  waits i c f notified hc hstage := by
    obtain ⟨fl, hf, hkey, -⟩ := (h.placed i c hc).waits f notified hstage
    refine ⟨fl, hf, hkey, ?_⟩
    cases hlanded : fl.phase.isLanded with
    | true =>
      have hstep := step_wake_of_landed h hc hstage ⟨fl, hf, hlanded⟩
      exact .inl ⟨rfl, Option.isSome_iff_exists.2 ⟨_, step_eq_some_iff.2 hstep⟩⟩
    | false => exact .inr ⟨rfl, willLand hf⟩
  returns i c result hc hstage := by
    obtain ⟨f, fl, hf, hkey, hresult⟩ := (h.placed i c hc).returns result hstage
    exact ⟨f, fl, hf, hkey, hresult, h.led f fl hf⟩
  counted := hcounts

theorem forgets_eq_false_of_isWork {a : Action ρ} (h : a.isWork = true) : a.forgets = false := by
  cases a with
  | invalidate | clear => exact absurd h Bool.false_ne_true
  | _ => rfl

theorem isRemembered_of_run {as : List (Action ρ)} (hrun : svc.run s as = some s')
    (has : ∀ a ∈ as, a.forgets = false) (h : IsRemembered svc s) : IsRemembered svc s' :=
  run_induction hrun h fun a ha _ _ ht hstep => hstep.isRemembered (has a ha) ht

theorem IsRemembered.isReadOnce (h : IsRemembered svc s) (hs : IsSound svc s) :
    IsReadOnce svc s where
  once key := by
    have hcount := List.nodup_iff_count_le_one.1 h.single key
    rw [keys, List.count_eq_countP, List.countP_map] at hcount
    refine le_of_eq_of_le (List.countP_congr fun fl _ => ?_) hcount
    simp
  shared i j c d r q hc hd hkey hr hq := h.eq_of_returned hs hc hd hkey hr hq
  received i c hc hopen := by
    obtain ⟨s', result, hworks, hc'⟩ := canReturn hs hc hopen
    obtain ⟨as, has, hrun⟩ := hworks.exists_run
    refine ⟨as, s', result, has, hrun, hc', fun j d r hd hkey hr => ?_⟩
    have h' := isRemembered_of_run hrun (fun a ha => forgets_eq_false_of_isWork (has a ha)) h
    exact h'.eq_of_returned (hs.run hrun) hd hc' hkey hr rfl

/-- Whatever the order in which callers, flights and those who make the cache forget take their
steps, a key is read by one flight at a time and nobody waits in vain; and if nothing is forgotten, a
key is read only once. -/
theorem isSingleFlight_of_run (svc : Service ρ α) (as : List (Action ρ)) (s : System ρ α)
    (hrun : svc.run {} as = some s) :
    IsSingleFlight svc s ∧ ((∀ a ∈ as, a.forgets = false) → IsReadOnce svc s) := by
  have hsound : IsSound svc s := isSound_empty.run hrun
  have hcounts : CountsReadings s :=
    run_induction hrun rfl fun _ _ _ _ ht hstep => hstep.countsReadings ht
  refine ⟨hsound.isSingleFlight hcounts, fun has => ?_⟩
  have hempty : IsRemembered svc {} := ⟨by simp [keys], List.nodup_nil⟩
  exact (isRemembered_of_run hrun has hempty).isReadOnce hsound

/-- Requests are read as the pair of request and number. -/
def echo : Service String (String × Nat) where
  key request := request
  read request number := (request, number)

/-- The leader of a flight is cancelled, and the caller that waits gets the result. -/
def cancelledLeader : List (Action String) :=
  [.call .async "01/GTGT", .call .blocking "01/GTGT", .look 0, .look 1, .cancel 0, .takeOff 0,
    .commit 0, .land 0, .wake 1, .look 1]

theorem isSingleFlight_cancelledLeader : ∃ s, echo.run {} cancelledLeader = some s ∧
    s.callers = [⟨.async, "01/GTGT", .cancelled⟩,
      ⟨.blocking, "01/GTGT", .returned ("01/GTGT", 1)⟩] ∧
    IsSingleFlight echo s ∧ IsReadOnce echo s := by
  have hrun : (echo.run {} cancelledLeader).map (·.callers) =
      some [⟨.async, "01/GTGT", .cancelled⟩,
        ⟨.blocking, "01/GTGT", .returned ("01/GTGT", 1)⟩] := by
    decide
  obtain ⟨s, hs, hcallers⟩ := Option.map_eq_some_iff.1 hrun
  obtain ⟨hsingle, honce⟩ := isSingleFlight_of_run echo cancelledLeader s hs
  exact ⟨s, hs, hcallers, hsingle, honce (by decide)⟩

end Filing.SingleFlight
