import ScriptBoundary.Proofs.Showing
import ScriptBoundary.Proofs.Wrappers

/-!
# Subscribing and unsubscribing

The two functions of an event give its code a handler, which is what a script function becomes for
the shape of the event. This depends on the function and the shape only: the face of a callable of
the shape stands for that callable, and any other function has one wrapper for the shape, which is
made when the pair first comes up and stays. So unsubscribing a function hands over the very handler
that subscribing it handed over, whatever happened in between.
-/

namespace ScriptBoundary

open Run

/-- The functions by which scripts subscribe to an event and unsubscribe from it, and their plans. -/
structure EventFunctions where
  add : FunctionId
  remove : FunctionId
  subscribe : MemberPlan
  unsubscribe : MemberPlan

namespace Catalog

variable (catalog : Catalog)

/-- Runs the code of an event with a handler, or without one. -/
def deliver (r : Reentry) (plan : MemberPlan) (target : Instance) (handler : NativeValue) :
    Run Error ScriptValue := do
  let i ← .ofExcept (catalog.codeFor plan target)
  let _ ← (catalog.runImplementation r i target [handler]).mapError (Error.ofHost plan.member)
  return .undefined

/-- Called with these arguments on a proxy, both functions of an event come to run their code with
this handler, in the second of the states. -/
def Hands (e : EventFunctions) (args : List ScriptValue) (handler : NativeValue) (w w' : World) :
    Prop :=
  ∀ r this target, World.receiver? w this = some target →
    catalog.callFunction r e.add this args w = catalog.deliver r e.subscribe target handler w' ∧
      catalog.callFunction r e.remove this args w =
        catalog.deliver r e.unsubscribe target handler w'

/-- From a state on, unsubscribing undoes subscribing. -/
structure Undoes (e : EventFunctions) (w : World) : Prop where
  /-- Without a callback there is no handler, and nothing is bound. -/
  nothing : ∀ args, (args.headD .undefined).isNullish = true → catalog.Hands e args .null w w
  /-- A function has one handler from its first call on, and two functions that are not the faces of
  callables have different ones. -/
  handler : ∀ f : FunctionId, f.index < w.heap.functions.size →
    ∃ (c : Callable) (w' : World), catalog.Moves w w' ∧
      (∀ rest, catalog.Hands e (.function f :: rest) (.callable c) w w') ∧
      ∀ u, Session.Visits catalog w' u → u.exposer.alive = true →
        (∀ rest, catalog.Hands e (.function f :: rest) (.callable c) u u) ∧
        ∀ g : FunctionId, g ≠ f → g.index < u.heap.functions.size →
          (u.heap.function f).callable? = none → (u.heap.function g).callable? = none →
          ∃ (c' : Callable) (u' : World), catalog.Moves u u' ∧
            (∀ rest, catalog.Hands e (.function g :: rest) (.callable c') u u') ∧
            c'.number ≠ c.number

/-- The prototype of a definition holds the functions of an event under the names of its members. -/
structure HoldsEvent (d : Definition) (m n : ExposedMember) (e : EventFunctions) (w : World) :
    Prop where
  subscribe : catalog.PlanOf d.declaration m e.subscribe
  unsubscribe : catalog.PlanOf d.declaration n e.unsubscribe
  add : w.heap.own? d.prototype m.name = some (.data (.function e.add))
  remove : w.heap.own? d.prototype n.name = some (.data (.function e.remove))

/-! ## The two members of an event -/

/-- A claim that asks for the two functions of an event asks for nothing else. -/
theorem eq_of_mem_expand_event {prefixes : EventPrefixes} {claim : Claim} {m n : ExposedMember}
    (hm : m ∈ catalog.expand prefixes claim) (hn : n ∈ catalog.expand prefixes claim)
    (hmrole : m.role = .subscribe) (hnrole : n.role = .unsubscribe) :
    ∀ x ∈ catalog.expand prefixes claim, x = m ∨ x = n := by
  obtain ⟨declaring, member, expose⟩ := claim
  cases expose with
  | function name =>
    cases List.mem_singleton.1 hm
    cases hmrole
  | property name readOnly =>
    rcases List.mem_cons.1 hm with rfl | hm
    · cases hmrole
    · split at hm
      · cases List.mem_singleton.1 hm
        cases hmrole
      · cases hm
  | event name add remove =>
    rcases List.mem_pair.1 hm with rfl | rfl
    · rcases List.mem_pair.1 hn with rfl | rfl
      · cases hnrole
      · exact fun x hx => List.mem_pair.1 hx
    · cases hmrole

/-- A member that has its name for itself. -/
theorem named_eq_singleton {members : List ExposedMember} (hnodup : members.Nodup)
    {y : ExposedMember} (hy : y ∈ members) (only : ∀ x ∈ members, x.name = y.name → x = y) :
    members.filter (·.name = y.name) = [y] := by
  refine List.perm_singleton.1 ((List.perm_ext_iff_of_nodup (hnodup.filter _)
    (List.nodup_singleton y)).2 fun x => ?_)
  rw [List.mem_filter, decide_eq_true_iff, List.mem_singleton]
  refine ⟨fun hx => only x hx.1 hx.2, ?_⟩
  rintro rfl
  exact ⟨hy, rfl⟩

variable {catalog}

/-- The two functions of an event come from one class, and if their names differ no other member
has these. -/
theorem FirstWins.named_event {prefixes : EventPrefixes} {claims : List Claim} {k : Nat}
    {taken : List (Fin claims.length)} {out : List ExposedMember}
    (h : catalog.FirstWins prefixes claims k taken out) {m n : ExposedMember} (hm : m ∈ out)
    (hn : n ∈ out) (hmrole : m.role = .subscribe) (hnrole : n.role = .unsubscribe)
    (hmember : m.member = n.member) (hne : m.name ≠ n.name) :
    m.declaring = n.declaring ∧ out.filter (·.name = m.name) = [m] ∧
      out.filter (·.name = n.name) = [n] := by
  obtain ⟨i, hi, hmi, hni⟩ := h.exists_claim hm hn (.inl hmember)
  have hnodup : out.Nodup :=
    h.pairwise_out (fun i _ => catalog.nodup_expand prefixes _) fun _ _ hne h => hne (h ▸ rfl)
  -- A member of the name of one of the two comes from their claim, so it is one of the two.
  have hnamed : ∀ x ∈ out, x.name = m.name ∨ x.name = n.name → x = m ∨ x = n := by
    intro x hx hname
    have hclaim : x ∈ catalog.expand prefixes claims[i] := by
      rcases hname with hname | hname
      · obtain ⟨j, hj, hxj, hmj⟩ := h.exists_claim hx hm (.inr hname)
        have hij := h.eq_of_compete hj hi (.inr ⟨m, hmj, m, hmi, rfl⟩)
        exact hij ▸ hxj
      · obtain ⟨j, hj, hxj, hnj⟩ := h.exists_claim hx hn (.inr hname)
        have hij := h.eq_of_compete hj hi (.inr ⟨n, hnj, n, hni, rfl⟩)
        exact hij ▸ hxj
    exact catalog.eq_of_mem_expand_event hmi hni hmrole hnrole x hclaim
  refine ⟨?_, named_eq_singleton hnodup hm ?_, named_eq_singleton hnodup hn ?_⟩
  · rw [(catalog.of_mem_expand prefixes hmi).2, (catalog.of_mem_expand prefixes hni).2]
  · intro x hx hname
    rcases hnamed x hx (.inl hname) with rfl | rfl
    · rfl
    · exact absurd hname.symm hne
  · intro x hx hname
    rcases hnamed x hx (.inr hname) with rfl | rfl
    · exact absurd hname hne
    · rfl

/-! ## Handlers of functions -/

/-- The function is the face of a callable that has the shape. -/
def StandsFor (catalog : Catalog) (w : World) (f : FunctionId) (shape : Shape) (c : Callable) :
    Prop :=
  (w.heap.function f).callable? = some c ∧ c.shape.same catalog.identity shape = true

variable {w u v start : World} {f g : FunctionId} {shape : Shape}

/-- A function that stands for no callable of the shape is wrapped. -/
theorem callableFor_of_not_standsFor (h : ∀ c, ¬ catalog.StandsFor w f shape c) :
    (catalog.callableFor f shape : Run Error Callable) w =
      (catalog.bind f shape : Run Error Callable) w := by
  rw [callableFor, bind_ok (ofHeap_apply _ w)]
  cases hface : (w.heap.function f).callable? with
  | none => rfl
  | some c =>
    have hother : ¬ c.shape.same catalog.identity shape = true := fun hsame => h c ⟨hface, hsame⟩
    dsimp only
    rw [if_neg hother]

/-- A function that was made stands for the same callable later. -/
theorem standsFor_later_iff (hu : Session.Visits catalog w u)
    (hf : f.index < w.heap.functions.size) {c : Callable} :
    catalog.StandsFor u f shape c ↔ catalog.StandsFor w f shape c := by
  rw [StandsFor, StandsFor, hu.later.function f hf]

/-- A function that is wrapped has an entry from then on. -/
theorem exists_entry {settings : Settings}
    (hw : Session.Visits catalog (World.start settings) w)
    (h : ∀ c, ¬ catalog.StandsFor w f shape c) :
    ∃ b w', (catalog.callableFor f shape : Run Error Callable) w = some (.ok b.wrapper, w') ∧
      catalog.pairClass b.pair = catalog.pairClass (shape, f) ∧
      ∀ u, Session.Visits catalog w' u →
        b ∈ u.exposer.bindings ∧ ∃ pairs, catalog.Bound pairs u := by
  obtain ⟨pairs, hwraps⟩ := exists_wraps_of_visits hw
  obtain ⟨b, w', hrun, hb, hpair, hbound⟩ := hwraps.bound.bind f shape
  refine ⟨b, w', (callableFor_of_not_standsFor h).trans hrun, hpair, fun u hu => ?_⟩
  obtain ⟨hlater, hstays⟩ := hbound.later hu
  exact ⟨hstays b hb, hlater⟩

/-- What a function becomes for a shape it becomes in all later states, and nothing changes then. -/
theorem callableFor_lasts {settings : Settings}
    (hw : Session.Visits catalog (World.start settings) w)
    (hf : f.index < w.heap.functions.size) (shape : Shape) :
    ∃ c w', (catalog.callableFor f shape : Run Error Callable) w = some (.ok c, w') ∧
      ∀ u, Session.Visits catalog w' u →
        (catalog.callableFor f shape : Run Error Callable) u = some (.ok c, u) := by
  -- The face of a callable of the shape needs no entry; any other function has one from now on.
  by_cases hface : ∃ c, catalog.StandsFor w f shape c
  · obtain ⟨c, hc⟩ := hface
    refine ⟨c, w, catalog.callableFor_of_face hc.1 hc.2, fun u hu => ?_⟩
    obtain ⟨hcu, hsame⟩ := (standsFor_later_iff hu hf).2 hc
    exact catalog.callableFor_of_face hcu hsame
  · have hno : ∀ c, ¬ catalog.StandsFor w f shape c := fun c hc => hface ⟨c, hc⟩
    obtain ⟨b, w', hrun, hpair, hlater⟩ := exists_entry hw hno
    refine ⟨b.wrapper, w', hrun, fun u hu => ?_⟩
    obtain ⟨hb, pairs, hbound⟩ := hlater u hu
    have hwu := (Session.Visits.start.moves (catalog.moves_callableFor f shape hrun).moves).trans hu
    rw [callableFor_of_not_standsFor fun c hc => hno c ((standsFor_later_iff hwu hf).1 hc)]
    exact hbound.bind_of_mem hb hpair

/-- Two functions that stand for no callable become different callables. -/
theorem number_ne_of_ne {settings : Settings}
    (hw : Session.Visits catalog (World.start settings) w) (hne : g ≠ f)
    (hnof : ∀ c, ¬ catalog.StandsFor w f shape c) {c : Callable} {w' : World}
    (hrun : (catalog.callableFor f shape : Run Error Callable) w = some (.ok c, w'))
    (hu : Session.Visits catalog w' u) (hnog : ∀ c, ¬ catalog.StandsFor u g shape c)
    {c' : Callable} {u' : World}
    (hrun' : (catalog.callableFor g shape : Run Error Callable) u = some (.ok c', u')) :
    c'.number ≠ c.number := by
  have hw' := hw.moves (catalog.moves_callableFor f shape hrun).moves
  obtain ⟨b, _, hfirst, hpair, hlater⟩ := exists_entry hw hnof
  obtain ⟨b', _, hsecond, hpair', hlater'⟩ := exists_entry (hw'.trans hu) hnog
  cases hfirst.symm.trans hrun
  cases hsecond.symm.trans hrun'
  -- Both entries are there in the end, so with one wrapper they would be one entry.
  obtain ⟨hb', pairs, hbound⟩ := hlater' u' .start
  obtain ⟨hb, -⟩ := hlater u' (hu.moves (catalog.moves_callableFor g shape hrun').moves)
  intro hnumber
  rw [hbound.eq_of_number hb' hb hnumber, hpair] at hpair'
  exact hne (pairClass_eq_iff.1 hpair').2.symm

/-! ## Functions of events -/

/-- The plan is that of one of the functions of an event whose handlers have the shape. -/
structure IsEventPlan (shape : Shape) (plan : MemberPlan) : Prop where
  adapter : plan.adapter = ⟨[.converted (.callable shape)], .discarded⟩
  role : plan.role = .subscribe ∨ plan.role = .unsubscribe

/-- The plans of the functions of an event. -/
theorem PlanOf.isEventPlan {type : ClassRef} {x : ExposedMember} {plan : MemberPlan}
    (h : catalog.PlanOf type x plan) (hrole : x.role = .subscribe ∨ x.role = .unsubscribe) :
    ∃ event, catalog.event? x.declaring x.member = some event ∧
      IsEventPlan event.handler plan := by
  obtain ⟨event, hevent, hadapter⟩ := h.exists_event hrole
  have hplan : plan.role = x.role := h.eq.2.2.1
  exact ⟨event, hevent, hadapter, hplan ▸ hrole⟩

/-- A call of a function of an event converts its argument and gives it to the code as handler. -/
theorem callFunction_of_event {plan : MemberPlan} (hplan : IsEventPlan shape plan)
    (hoffers : Offers f plan w) {r : Reentry} {this : ScriptValue} {target : Instance}
    (hthis : World.receiver? w this = some target) {args : List ScriptValue}
    {handler : NativeValue}
    (hvalue : catalog.toNative r (.callable shape) (args.headD .undefined) w =
      some (.ok handler, u))
    (hhandler : catalog.handlerArgument [handler] = .ok handler) :
    catalog.callFunction r f this args w = catalog.deliver r plan target handler u := by
  have hnatives : catalog.takeArguments r plan.adapter.intakes args w =
      some (.ok [handler], u) := by
    rw [hplan.adapter]
    exact (bind_ok hvalue _).trans (bind_ok (pure_apply _ u) _)
  have hgiven : catalog.codeArguments plan.role [handler] = .ok [handler] := by
    rcases hplan.role with hrole | hrole <;> rw [hrole] <;>
      exact congrArg (Except.map ([·])) hhandler
  rw [callFunction_of_offers hoffers, callMember_of_receiver hthis, bind_ok hnatives, hgiven,
    hplan.adapter, deliver]
  rfl

/-- The functions of an event work in a state. -/
structure EventWorks (e : EventFunctions) (shape : Shape) (w : World) : Prop where
  subscribe : IsEventPlan shape e.subscribe
  unsubscribe : IsEventPlan shape e.unsubscribe
  add : w.heap.Performs e.subscribe e.add
  remove : w.heap.Performs e.unsubscribe e.remove

namespace EventWorks

variable {e : EventFunctions}

theorem later (h : EventWorks e shape w) (hu : Session.Visits catalog w u) :
    EventWorks e shape u :=
  { h with
    add := hu.later.member e.add e.subscribe h.add
    remove := hu.later.member e.remove e.unsubscribe h.remove }

/-- What the argument converts to is what both functions hand over. -/
theorem hands (h : EventWorks e shape w) (halive : w.exposer.alive = true)
    {args : List ScriptValue} {handler : NativeValue}
    (hvalue : ∀ r, catalog.toNative r (.callable shape) (args.headD .undefined) w =
      some (.ok handler, u))
    (hhandler : catalog.handlerArgument [handler] = .ok handler) :
    catalog.Hands e args handler w u := by
  intro r this target hthis
  exact ⟨callFunction_of_event h.subscribe ⟨halive, h.add⟩ hthis (hvalue r) hhandler,
    callFunction_of_event h.unsubscribe ⟨halive, h.remove⟩ hthis (hvalue r) hhandler⟩

/-- Both functions hand over what a function becomes for the shape. -/
theorem hands_function (h : EventWorks e shape w) (halive : w.exposer.alive = true)
    {c : Callable} (hrun : (catalog.callableFor f shape : Run Error Callable) w =
      some (.ok c, u)) (rest : List ScriptValue) :
    catalog.Hands e (.function f :: rest) (.callable c) w u :=
  h.hands halive (fun _ => map_ok hrun NativeValue.callable) rfl

/-- Where the functions of an event work, unsubscribing undoes subscribing. -/
theorem undoes {settings : Settings} (h : EventWorks e shape w)
    (hw : Session.Visits catalog (World.start settings) w) (halive : w.exposer.alive = true) :
    catalog.Undoes e w := by
  refine ⟨fun args hargs => ?_, fun f hf => ?_⟩
  · refine h.hands halive (fun r => ?_) rfl
    rw [toNative_of_nullish catalog r _ hargs]
    rfl
  obtain ⟨c, w', hrun, hlasts⟩ := callableFor_lasts hw hf shape
  have hmoves := (catalog.moves_callableFor f shape hrun).moves
  refine ⟨c, w', hmoves, h.hands_function halive hrun, fun u hu halive' => ?_⟩
  have hwu := (Session.Visits.start.moves hmoves).trans hu
  have hworks := h.later hwu
  refine ⟨hworks.hands_function halive' (hlasts u hu), fun g hne hg hnof hnog => ?_⟩
  obtain ⟨c', u', hrun', -⟩ := callableFor_lasts (hw.trans hwu) hg shape
  refine ⟨c', u', (catalog.moves_callableFor g shape hrun').moves, hworks.hands_function halive' hrun', ?_⟩
  -- Neither function stands for a callable, and the first did not before.
  have hnof' : ∀ c, ¬ catalog.StandsFor w f shape c := by
    rintro c hc
    have hface := ((standsFor_later_iff hwu hf).2 hc).1
    rw [hnof] at hface
    cases hface
  have hnog' : ∀ c, ¬ catalog.StandsFor u g shape c := by
    rintro c ⟨hface, -⟩
    rw [hnog] at hface
    cases hface
  exact number_ne_of_ne hw hne hnof' hrun hu hnog' hrun'

end EventWorks

/-- The functions of an event with two names are on the prototype and work, and their handlers have
one shape. -/
theorem MadeIn.exists_eventWorks {before : World} {d : Definition} {members : List ExposedMember}
    (h : catalog.MadeIn before d members) {m n : ExposedMember} (hm : m ∈ members)
    (hn : n ∈ members) (hmrole : m.role = .subscribe) (hnrole : n.role = .unsubscribe)
    (hmember : m.member = n.member) (hne : m.name ≠ n.name) :
    ∃ e shape, catalog.HoldsEvent d m n e (catalog.making before d) ∧
      EventWorks e shape (catalog.making before d) := by
  obtain ⟨taken, hfirst⟩ := catalog.exists_firstWins_of_exposed _ _ _ h.resolved
  obtain ⟨hdeclaring, honlym, honlyn⟩ := hfirst.named_event hm hn hmrole hnrole hmember hne
  obtain ⟨add, subscribe, hadd, hsubscribe, hperforms⟩ :=
    h.exists_function honlym (by rw [hmrole]; exact MemberCategory.noConfusion)
  obtain ⟨remove, unsubscribe, hremove, hunsubscribe, hperforms'⟩ :=
    h.exists_function honlyn (by rw [hnrole]; exact MemberCategory.noConfusion)
  -- Both find the same event.
  obtain ⟨event, hevent, hplan⟩ := hsubscribe.isEventPlan (.inl hmrole)
  obtain ⟨event', hevent', hplan'⟩ := hunsubscribe.isEventPlan (.inr hnrole)
  rw [← hdeclaring, ← hmember, hevent] at hevent'
  cases hevent'
  exact ⟨⟨add, remove, subscribe, unsubscribe⟩, event.handler,
    ⟨hsubscribe, hunsubscribe, hadd, hremove⟩, ⟨hplan, hplan', hperforms, hperforms'⟩⟩

/-- Unsubscribing undoes subscribing. For each event that a definition exposes under two names, the
prototype holds a function under either name when the definition is made. In all states from then
on, as long as the exposer lives, both functions hand a script function to the code of the event as
one and the same handler, which stays so whatever happens in between; different functions have
different handlers, unless they are the faces of callables; and without a callback both run their
code without a handler. -/
theorem unsubscribing_undoes_subscribing {settings : Settings} {u w : World} {c : ClassRef}
    {d : Definition} (hu : Session.Visits catalog (World.start settings) u)
    (hbuild : catalog.definitionOf c u = some (.ok d, w)) :
    ∃ before members, catalog.Origin (World.start settings) u w c d before members ∧
      ∀ m ∈ members, ∀ n ∈ members, m.role = .subscribe → n.role = .unsubscribe →
        m.member = n.member → m.name ≠ n.name →
        ∃ e, catalog.HoldsEvent d m n e (catalog.making before d) ∧
          ∀ v, Session.Visits catalog (catalog.making before d) v → v.exposer.alive = true →
            catalog.Undoes e v := by
  obtain ⟨before, members, horigin⟩ := exists_origin hu hbuild
  refine ⟨before, members, horigin, fun m hm n hn hmrole hnrole hmember hne => ?_⟩
  obtain ⟨e, shape, hholds, hworks⟩ :=
    horigin.made.exists_eventWorks hm hn hmrole hnrole hmember hne
  refine ⟨e, hholds, fun v hv halive => ?_⟩
  have hvisits := (horigin.visited.move horigin.made.move).trans hv
  exact (hworks.later hv).undoes hvisits halive

/-- The functions by which scripts subscribe to the event of a lamp and unsubscribe from it. -/
theorem lamp_unsubscribing_undoes_subscribing :
    ∃ d w e, widgets.definitionOf ⟨1⟩ (World.start {}) = some (.ok d, w) ∧
      widgets.HoldsEvent d ⟨"addSwitched", "Switched", .subscribe, ⟨1⟩⟩
        ⟨"removeSwitched", "Switched", .unsubscribe, ⟨1⟩⟩ e w ∧
      widgets.Undoes e w := by
  have hbuild : ∃ d w, widgets.definitionOf ⟨1⟩ (World.start {}) = some (.ok d, w) ∧
      w.exposer.alive = true := ⟨_, _, rfl, rfl⟩
  obtain ⟨d, w, hbuild, halive⟩ := hbuild
  obtain ⟨before, members, horigin, hevents⟩ := unsubscribing_undoes_subscribing .start hbuild
  obtain ⟨-, hmembers, hworld⟩ := horigin.first rfl
  cases hmembers
  obtain ⟨e, hholds, hundoes⟩ :=
    hevents ⟨"addSwitched", "Switched", .subscribe, ⟨1⟩⟩ (by decide)
      ⟨"removeSwitched", "Switched", .unsubscribe, ⟨1⟩⟩ (by decide) rfl rfl rfl (by decide)
  rw [← hworld] at hholds hundoes
  exact ⟨d, w, e, hbuild, hholds, hundoes w .start halive⟩

end Catalog

end ScriptBoundary
