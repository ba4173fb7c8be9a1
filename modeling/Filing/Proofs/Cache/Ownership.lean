import Filing.Proofs.Cache.Keys
import Filing.Proofs.Cache.Landing
import Filing.Proofs.Form.Outline

/-!
# Whose reading a caller gets

A caller returns with the reading of some request that has its key. This is the reading of its own
request, unless another request has that key and another reading. Then the caller that comes second
gets the reading of the first one.
-/

namespace Filing.SingleFlight

/-! ## Requests of a run -/

section Runs

variable {ρ α : Type} {svc : Service ρ α} {s t u : System ρ α} {P : ρ → Prop}

theorem run_append {as bs : List (Action ρ)} (has : svc.run s as = some t)
    (hbs : svc.run t bs = some u) : svc.run s (as ++ bs) = some u := by
  unfold Service.run at has hbs ⊢
  rw [List.foldlM_append, has]
  exact hbs

/-- Callers keep their requests, and no other ones come than are called. -/
theorem Step.requests {a : Action ρ} (h : Step svc s a t)
    (hcall : ∀ mode request, a = .call mode request → P request)
    (hs : ∀ c ∈ s.callers, P c.request) : ∀ c ∈ t.callers, P c.request := by
  have hset : ∀ (i : Nat) (stage : Stage α), ∀ c ∈ (s.setStage i stage).callers, P c.request := by
    intro i stage c hc
    obtain ⟨j, hj⟩ := List.getElem?_of_mem hc
    unfold System.setStage at hj
    rw [List.getElem?_modify] at hj
    obtain ⟨d, hd, rfl⟩ := Option.map_eq_some_iff.1 hj
    have hrequest := hs d (List.mem_of_getElem? hd)
    split <;> exact hrequest
  cases h with
  | call mode request =>
    intro c hc
    rcases List.mem_append.1 hc with hc | hc
    · exact hs c hc
    · rw [List.mem_singleton.1 hc]
      exact hcall mode request rfl
  | @look i c waited =>
    unfold Service.look
    split <;> exact hset i _
  | land =>
    intro c hc
    obtain ⟨d, hd, rfl⟩ := List.mem_map.1 hc
    rw [request_notify]
    exact hs d hd
  | wake | timeOut | deliver | cancel => exact hset _ _
  | takeOff | commit | invalidate | clear => exact hs

theorem requests_of_run {as : List (Action ρ)} (hrun : svc.run s as = some t)
    (hcalls : ∀ mode request, Action.call mode request ∈ as → P request)
    (hs : ∀ c ∈ s.callers, P c.request) : ∀ c ∈ t.callers, P c.request :=
  run_induction (p := fun s => ∀ c ∈ s.callers, P c.request) hrun hs fun _ ha _ _ hs hstep =>
    hstep.requests (fun mode request heq => hcalls mode request (heq ▸ ha)) hs

/-- What a caller returns with was read for a caller with its key. -/
theorem IsSound.exists_reader (hs : IsSound svc s) {c : Caller ρ α} (hc : c ∈ s.callers)
    {result : α} (hreturned : c.stage = .returned result) :
    ∃ d ∈ s.callers, svc.key d.request = svc.key c.request ∧
      ∃ number, result = svc.read d.request number := by
  obtain ⟨i, hi⟩ := List.getElem?_of_mem hc
  obtain ⟨f, fl, hf, hkey, hresult⟩ := (hs.placed i c hi).returns result hreturned
  obtain ⟨hleader, hread⟩ := hs.led f fl hf
  obtain ⟨d, hd, hrequest⟩ := Option.map_eq_some_iff.1 hleader
  exact ⟨d, List.mem_of_getElem? hd, hrequest ▸ hkey, hrequest ▸ hread result hresult⟩

theorem not_mem_of_isWork {as : List (Action ρ)} (has : ∀ a ∈ as, a.isWork = true) (mode : Mode)
    (request : ρ) : Action.call mode request ∉ as :=
  fun hmem => absurd (has _ hmem) Bool.false_ne_true

/-- A caller may come and be served without being disturbed. -/
theorem exists_run_call (hs : IsSound svc s) (mode : Mode) {request : ρ} {result : α}
    (hget : (s.cache.get (svc.key request) (svc.read request)).2 = some result) :
    ∃ as t, svc.run s as = some t ∧ (∀ m r, Action.call m r ∈ as → r = request) ∧
      t.cache = (s.cache.get (svc.key request) (svc.read request)).1 ∧
      ∃ c ∈ t.callers, c.request = request ∧ c.stage = .returned result := by
  obtain ⟨t, hworks, hcache, ht⟩ :=
    works_get (hs.call mode request) List.getElem?_concat_length hget
  obtain ⟨as, has, hrun⟩ := hworks.exists_run
  refine ⟨.call mode request :: as, t, run_cons.2 ⟨_, .call mode request, hrun⟩, ?_, hcache,
    _, List.mem_of_getElem? ht, rfl, rfl⟩
  intro m r hmem
  rcases List.mem_cons.1 hmem with heq | hmem
  · exact (Action.call.inj heq).2
  · exact absurd hmem (not_mem_of_isWork has m r)

/-- Of two callers with one key the second may get what was read for the first. -/
theorem exists_run_of_key_eq {p q : ρ} (hkey : svc.key p = svc.key q) :
    ∃ as s, svc.run {} as = some s ∧
      (∀ m request, Action.call m request ∈ as → request = p ∨ request = q) ∧
      ∃ c ∈ s.callers, c.request = q ∧ c.stage = .returned (svc.read p 1) := by
  have hread : (Cache.get {} (svc.key p) (svc.read p)).2 = some (svc.read p 1) := rfl
  obtain ⟨as, s, hfirst, hp, hcache, -⟩ := exists_run_call isSound_empty .blocking hread
  have hready : s.cache.entries.find? (svc.key q) = some (.ready (svc.read p 1)) := by
    rw [hcache, ← hkey]
    exact KeyMap.find?_insert_self _ _ _
  have hget : (s.cache.get (svc.key q) (svc.read q)).2 = some (svc.read p 1) := by
    unfold Cache.get Cache.look
    rw [hready]
  obtain ⟨bs, t, hsecond, hq, -, hserved⟩ :=
    exists_run_call (isSound_empty.run hfirst) .blocking hget
  refine ⟨as ++ bs, t, run_append hfirst hsecond, fun m request hmem => ?_, hserved⟩
  rcases List.mem_append.1 hmem with hmem | hmem
  · exact .inl (hp m request hmem)
  · exact .inr (hq m request hmem)

end Runs

/-! ## Templates -/

/-- The reading of a template on its own. -/
def ownReading (rootName : String) (request : String × String) : TemplateReading :=
  TemplateReading.ofText rootName request.2 request.1

/-- A caller returns with the reading of its own request, and as long as it is not cancelled it can
return. -/
structure IsServed (rootName : String) (s : System (String × String) NumberedReading) : Prop where
  own : ∀ c ∈ s.callers, ∀ result, c.stage = .returned result →
    result.reading = ownReading rootName c.request
  received : ∀ (i : Nat) (c : Caller (String × String) NumberedReading), s.callers[i]? = some c →
    c.stage ≠ .cancelled → ∃ as t result, (∀ a ∈ as, a.isWork = true) ∧
      (templates rootName).run s as = some t ∧
      t.callers[i]? = some ⟨c.mode, c.request, .returned result⟩ ∧
      result.reading = ownReading rootName c.request

/-- Every run in which only these requests are made serves its callers. -/
def ServesAll (rootName : String) (requests : List (String × String)) : Prop :=
  ∀ as s, (templates rootName).run {} as = some s →
    (∀ mode request, Action.call mode request ∈ as → request ∈ requests) → IsServed rootName s

variable {rootName : String} {s : System (String × String) NumberedReading}

/-- Where one key means one reading, everybody has their own. -/
theorem IsSound.reading_eq (hs : IsSound (templates rootName) s)
    (hkeys : ∀ c ∈ s.callers, ∀ d ∈ s.callers,
      fingerprint d.request.1 d.request.2 = fingerprint c.request.1 c.request.2 →
        ownReading rootName d.request = ownReading rootName c.request) :
    ∀ c ∈ s.callers, ∀ result, c.stage = .returned result →
      result.reading = ownReading rootName c.request := by
  intro c hc result hreturned
  obtain ⟨d, hd, hkey, number, rfl⟩ := hs.exists_reader hc hreturned
  exact hkeys c hc d hd hkey

theorem isServed_of_keys {requests : List (String × String)} {as : List (Action (String × String))}
    (hrun : (templates rootName).run {} as = some s)
    (hcalls : ∀ mode request, Action.call mode request ∈ as → request ∈ requests)
    (hkeys : ∀ p ∈ requests, ∀ q ∈ requests, fingerprint p.1 p.2 = fingerprint q.1 q.2 →
      ownReading rootName p = ownReading rootName q) : IsServed rootName s := by
  have hs : IsSound (templates rootName) s := isSound_empty.run hrun
  have hrequests : ∀ c ∈ s.callers, c.request ∈ requests :=
    requests_of_run hrun hcalls (by simp)
  refine ⟨hs.reading_eq fun c hc d hd => hkeys _ (hrequests d hd) _ (hrequests c hc), ?_⟩
  intro i c hc hopen
  obtain ⟨t, result, hworks, ht⟩ := canReturn hs hc hopen
  obtain ⟨bs, hbs, hmore⟩ := hworks.exists_run
  have hstill : ∀ c ∈ t.callers, c.request ∈ requests :=
    requests_of_run hmore (fun m r hmem => absurd hmem (not_mem_of_isWork hbs m r)) hrequests
  have hown := (hs.run hmore).reading_eq
    fun c hc d hd => hkeys _ (hstill d hd) _ (hstill c hc)
  exact ⟨bs, t, result, hbs, hmore, ht, hown _ (List.mem_of_getElem? ht) result rfl⟩

/-- The bytes of two requests are the same only if the requests are, or if they are one text that is
cut at different NULs. And callers always get the reading of their own request, exactly if no two
requests that are cut from one text, or whose digests collide, have different readings. -/
theorem servesAll_iff (rootName : String) :
    (∀ p q : String × String, fingerprintBytes p.1 p.2 = fingerprintBytes q.1 q.2 ↔
      p = q ∨ Straddles p q ∨ Straddles q p) ∧
    ∀ requests : List (String × String), ServesAll rootName requests ↔
      ∀ p ∈ requests, ∀ q ∈ requests, Straddles p q ∨ Collides p q →
        ownReading rootName p = ownReading rootName q := by
  refine ⟨fingerprintBytes_eq_iff, fun requests => ⟨?_, ?_⟩⟩
  · intro hserves p hp q hq hclash
    have hkey : (templates rootName).key p = (templates rootName).key q :=
      (fingerprint_eq_iff p q).2 (.inr (hclash.imp_left .inl))
    obtain ⟨as, s, hrun, hcalls, c, hc, rfl, hreturned⟩ := exists_run_of_key_eq hkey
    refine (hserves as s hrun fun m r hmem => ?_).own c hc _ hreturned
    rcases hcalls m r hmem with rfl | rfl
    · exact hp
    · exact hq
  · intro hclash as s hrun hcalls
    refine isServed_of_keys hrun hcalls fun p hp q hq hkey => ?_
    rcases (fingerprint_eq_iff p q).1 hkey with rfl | (h | h) | h
    · rfl
    · exact hclash p hp q hq (.inl h)
    · exact (hclash q hq p hp (.inl h)).symm
    · exact hclash p hp q hq (.inr h)

/-- A template with the code of another form and a NUL before it, which is text outside its root. -/
def prefixedRequest : String × String :=
  ("02/TNCN\x00<Template><Section/></Template>", "01/GTGT")

/-- The template, for a form whose code goes on after a NUL. -/
def plainRequest : String × String := ("<Template><Section/></Template>", "01/GTGT\x0002/TNCN")

/-- What both are read as. -/
def emptyTemplate : Xml.Node := { name := "Template", children := [{ name := "Section" }] }

theorem straddles_prefixedRequest : Straddles prefixedRequest plainRequest :=
  ⟨"02/TNCN", by decide, by decide⟩

/-- Two requests give the same bytes, and who asks for the second one gets the template of the form
of the first. -/
theorem exists_run_prefixedRequest :
    prefixedRequest ≠ plainRequest ∧
      fingerprintBytes prefixedRequest.1 prefixedRequest.2 =
        fingerprintBytes plainRequest.1 plainRequest.2 ∧
      ∃ as s, (templates "Template").run {} as = some s ∧
        ∃ c ∈ s.callers, c.request = plainRequest ∧ ∃ result, c.stage = .returned result ∧
          result.reading ≠ ownReading "Template" plainRequest := by
  have hbytes := straddles_prefixedRequest.fingerprintBytes_eq
  have hkey : (templates "Template").key prefixedRequest =
      (templates "Template").key plainRequest :=
    (fingerprint_eq_iff _ _).2 (.inr (.inl (.inl straddles_prefixedRequest)))
  have hfirst : (ownReading "Template" prefixedRequest).template?.map (·.formCode) =
      some "01/GTGT" := by
    have hroot : Xml.readRoot "Template" prefixedRequest.1 = .ok emptyTemplate := by decide +kernel
    rw [ownReading, TemplateReading.ofText_eq, hroot]
    rfl
  have hsecond : (ownReading "Template" plainRequest).template?.map (·.formCode) =
      some "01/GTGT\x0002/TNCN" := by
    have hroot : Xml.readRoot "Template" plainRequest.1 = .ok emptyTemplate := by decide +kernel
    rw [ownReading, TemplateReading.ofText_eq, hroot]
    rfl
  obtain ⟨as, s, hrun, -, c, hc, hrequest, hreturned⟩ := exists_run_of_key_eq hkey
  refine ⟨by decide, hbytes, as, s, hrun, c, hc, hrequest, _, hreturned, fun hsame => ?_⟩
  have hread : ownReading "Template" prefixedRequest = ownReading "Template" plainRequest := hsame
  rw [hread, hsecond] at hfirst
  exact absurd hfirst (by decide)

end Filing.SingleFlight
