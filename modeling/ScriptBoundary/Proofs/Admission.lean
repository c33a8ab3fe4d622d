import ScriptBoundary.Proofs.Refusal

/-!
# Which classes get proxies

The policy refuses a class that declares no member at all. It is asked for the types that members
and callables declare, and for the type that a value is wrapped as, but not for the class of the
instance that a proxy is made of. What decides about proxies is which definitions are kept: a
session makes proxies of instances by the definition of their own type and, through a factory, by
that of an interface (`Catalog.Admits`), whatever the policy says of their class.

Inside of a step every proxy is made by the definition that is kept for the type of the instance
(`Catalog.OwnMove`), so only a factory needs a look at the variables. That a session accounts for its
proxies and factories (`Catalog.Accounted`) is kept by every move, every step and so every session
(`Session.accounted_of_reaches`); conversely, an instance of a class that is admitted becomes a proxy
in the next steps (`Session.exists_proxy_of_admits`).
-/

namespace ScriptBoundary

open Run

/-- The step does not wrap an instance by a definition of the host's choice. -/
def Step.ChoosesNoDefinition : Step → Prop
  | instantiate .. => False
  | _ => True

/-- Only a factory is kept as one. -/
theorem Answer.of_toVariable {answer : Answer} {f : Factory}
    (h : answer.toVariable = .factory f) : answer = .factory f := by
  cases answer with
  | factory g =>
    cases h
    rfl
  | _ => cases h

namespace Catalog

variable (catalog : Catalog)

/-- There is a definition by which an instance of the class is made a proxy: that of its own type or
that of an interface which it is assignable to. -/
def Admits (w : World) (c : ClassRef) : Prop :=
  (w.exposer.definition? (catalog.identity c)).isSome = true ∨
    ∃ i, catalog.isInterface i = true ∧
      (w.exposer.definition? (catalog.identity i)).isSome = true ∧
      catalog.isAssignable c i = true

/-- The factory is one of an interface that has a definition. -/
def Issued (w : World) (f : Factory) : Prop :=
  catalog.isInterface f.interface = true ∧
    (w.exposer.definition? (catalog.identity f.interface)).isSome = true

/-- Every proxy is of a class that a definition admits, and every factory is one that was issued. -/
structure Accounted (w : World) : Prop where
  proxies : ∀ o target, (w.heap.object o).target = some target →
    catalog.Admits w target.runtimeClass
  factories : ∀ name f, Keyed.get? name w.named = some (.factory f) → catalog.Issued w f

/-- A type that has a definition has one in the second state. -/
def KeepsTypes (w w' : World) : Prop :=
  ∀ t, (w.exposer.definition? t).isSome = true → (w'.exposer.definition? t).isSome = true

variable {catalog} {w w' : World}

theorem Admits.later (hkeeps : KeepsTypes w w') {c : ClassRef} (h : catalog.Admits w c) :
    catalog.Admits w' c := by
  rcases h with hown | ⟨i, hi, hd, hc⟩
  · exact .inl (hkeeps _ hown)
  · exact .inr ⟨i, hi, hkeeps _ hd, hc⟩

theorem Issued.later (hkeeps : KeepsTypes w w') {f : Factory} (h : catalog.Issued w f) :
    catalog.Issued w' f :=
  ⟨h.1, hkeeps _ h.2⟩

/-- What a factory that was issued accepts is admitted. -/
theorem Issued.admits {f : Factory} (h : catalog.Issued w f) {c : ClassRef}
    (hc : catalog.isAssignable c f.interface = true) : catalog.Admits w c :=
  .inr ⟨f.interface, h.1, h.2, hc⟩

namespace Accounted

/-- A session begins with one object, which is no proxy, and without variables. -/
theorem init (settings : Settings) : catalog.Accounted (World.start settings) where
  proxies o target ho := by
    have hplain : ∀ p : ObjectId, ((World.start settings).heap.object p).target = none := by
      rintro ⟨_ | index⟩
      · rfl
      · rfl
    rw [hplain] at ho
    cases ho
  factories name f hf := by cases hf

/-- What leaves the proxies and the variables, and the types that have definitions. -/
theorem of_same (hw : catalog.Accounted w) (hkeeps : KeepsTypes w w')
    (hproxies : w.heap.SameProxies w'.heap) (hnamed : w'.named = w.named) :
    catalog.Accounted w' where
  proxies o target ho := by
    rw [hproxies o] at ho
    exact (hw.proxies o target ho).later hkeeps
  factories name f hf := by
    rw [hnamed] at hf
    exact (hw.factories name f hf).later hkeeps

/-- A proxy of an instance of a class that is admitted may be made, by whatever definition. -/
theorem newProxy (hw : catalog.Accounted w) {target : Instance}
    (hadmits : catalog.Admits w target.runtimeClass) (d : Definition) :
    catalog.Accounted { w with heap := (w.heap.newProxy d target).1 } where
  proxies o target' ho := by
    rcases w.heap.object_newObject_cases o ⟨d.name, w.heap.chain d.prototype, some target, []⟩ with
      hsame | ⟨-, hnew⟩
    · exact hw.proxies o target' ((congrArg ScriptObject.target hsame).symm.trans ho)
    · obtain rfl : target = target' :=
        Option.some.inj ((congrArg ScriptObject.target hnew).symm.trans ho)
      exact hadmits
  factories := hw.factories

/-- Inside of a step. -/
theorem ownMoves (hw : catalog.Accounted w) (h : catalog.OwnMoves w w') : catalog.Accounted w' := by
  induction h with
  | refl => exact hw
  | tail _ hmove ih =>
    cases hmove with
    | quiet move proxies named =>
      exact ih.of_same (World.Later.of_move move).definition proxies named
    | proxy kept => exact ih.newProxy (.inl (Option.isSome_iff_exists.2 ⟨_, kept⟩)) _

end Accounted

/-! ## Steps -/

/-- Only exposing an interface answers with a factory. -/
theorem gives_no_factory {r : Reentry} {step : Step} (h : ∀ c, step ≠ .exposeInterface c) :
    Run.Gives (fun answer => ∀ f, answer ≠ .factory f) (step.perform catalog r) := by
  have hoptional : ∀ v f, Answer.optional v ≠ .factory f := by
    rintro (_ | v) f
    · exact nofun
    · exact nofun
  cases step with
  | exposeInterface c => exact absurd rfl (h c)
  | global | keptFunction => exact .bind_any fun v => .pure (hoptional v)
  | item => exact .bind_any fun _ => .bind_any fun v => .pure (hoptional v)
  | prototype => exact .bind_any fun _ => .bind_any fun v => .pure (hoptional v)
  | script | native | globals | keptCount | dispose => exact .bind_any fun _ => .pure nofun
  | evaluate | sameScript | sameNative | instanceState | setGlobal | newHeir | get | has | own
  | lookup | keys | entries =>
    exact .bind_any fun _ => .bind_any fun _ => .pure nofun
  | register | members | definition | cached | counts | settings | exposeType =>
    exact .bind_any fun _ => .bind_any fun _ => .pure nofun
  | scriptView | nativeView | set | insert | callMethod | push | invoke | keepFunction
  | createThrough =>
    exact .bind_any fun _ => .bind_any fun _ => .bind_any fun _ => .pure nofun
  | toScript | toNative | wrap | unwrap | create | exposeInstance | exposeFunction | bind =>
    exact .bind_any fun _ => .bind_any fun _ => .bind_any fun _ => .pure nofun
  | roundTrip | instantiate | define | call =>
    exact .bind_any fun _ => .bind_any fun _ => .bind_any fun _ => .bind_any fun _ => .pure nofun

/-- An interface that is exposed has a definition from then on. -/
theorem issued_of_exposeInterface {c : ClassRef} {f : Factory}
    (h : catalog.exposeInterface c w = some (.ok f, w')) : catalog.Issued w' f := by
  obtain ⟨hi, rfl, hd⟩ := of_exposeInterface h
  exact ⟨hi, Option.isSome_iff_exists.2 ⟨f.definition, hd⟩⟩

/-- The answer to a step that is a factory is one that was issued. -/
theorem issued_of_perform {r : Reentry} {step : Step} {f : Factory}
    (h : step.perform catalog r w = some (.ok (.factory f), w')) : catalog.Issued w' f := by
  by_cases hstep : ∃ c, step = .exposeInterface c
  · obtain ⟨c, rfl⟩ := hstep
    obtain ⟨_, _, -, h⟩ := bind_ok_cases h
    obtain ⟨g, u, hexpose, hreturn⟩ := bind_ok_cases h
    cases hreturn
    exact issued_of_exposeInterface (ok_of_mapError hexpose)
  · exact absurd rfl (gives_no_factory (fun c hc => hstep ⟨c, hc⟩) h f)

/-- The second state is accounted for if the first is. -/
def KeepsAccounts (catalog : Catalog) (w w' : World) : Prop :=
  catalog.Accounted w → catalog.Accounted w'

instance : IsPreorder World catalog.KeepsAccounts where
  refl _ := id
  trans _ _ _ h₁ h₂ := h₂ ∘ h₁

/-- A factory that was issued wraps what is admitted. -/
theorem Accounted.createThrough (hw : catalog.Accounted w) {f : Factory}
    (hf : catalog.Issued w f) {target : Instance} {r : Except Error ScriptValue}
    (h : catalog.createThrough f target w = some (r, w')) : catalog.Accounted w' := by
  rw [Catalog.createThrough] at h
  cases halive : w.exposer.alive with
  | false =>
    rw [bind_error (requireAlive_of_disposed halive)] at h
    cases h
    exact hw
  | true =>
    rw [bind_ok (requireAlive_of_alive halive)] at h
    split at h
    · next hc =>
      cases h
      exact hw.newProxy (hf.admits hc) _
    · cases h
      exact hw

/-- The factory that is found is the one in the variable. -/
theorem of_findFactory {name : String} {f : Factory}
    (h : Step.findFactory name w = some (.ok f, w')) :
    w' = w ∧ Keyed.get? name w.named = some (.factory f) := by
  obtain ⟨found, u, hread, hmatch⟩ := bind_ok_cases h
  obtain ⟨rfl, rfl⟩ : Keyed.get? name w.named = found ∧ w = u := by
    cases hread
    exact ⟨rfl, rfl⟩
  match hfound : Keyed.get? name w.named, hmatch with
  | none, hmatch | some (.script _), hmatch | some (.native _), hmatch => cases hmatch
  | some (.factory g), hmatch =>
    cases hmatch
    exact ⟨rfl, rfl⟩

/-- Opening members makes no proxy. -/
theorem Accounted.register (hw : catalog.Accounted w) (type : TypeId)
    (descriptors : List Descriptor) :
    catalog.Accounted { w with exposer := (w.exposer.register type descriptors).1 } := by
  unfold Exposer.register
  split
  · exact hw
  · exact hw.of_same (fun _ ht => ht) (.refl _) rfl

/-- A factory in a variable was issued before the code for the instance runs, and is so after it. -/
theorem keepsAccounts_createThrough {r : Reentry} (hr : r.Moves catalog) (name : String)
    (v : NativeCode) :
    ((Step.createThrough name v).perform catalog r).Within catalog.KeepsAccounts := by
  intro w _ w' h hw
  rcases bind_cases h with ⟨e, hfind, -⟩ | ⟨f, u, hfind, hrest⟩
  · exact Step.within_findFactory (R := catalog.KeepsAccounts) name hfind hw
  · obtain ⟨rfl, hf⟩ := of_findFactory hfind
    rcases bind_cases hrest with ⟨e, heval, -⟩ | ⟨target, v, heval, hwrap⟩
    · exact hw.ownMoves (Step.moves_evalInstance hr _ heval)
    · have hmoves := Step.moves_evalInstance hr _ heval
      have hissued := (hw.factories name f hf).later
        (World.Later.of_moves hmoves.moves).definition
      rcases bind_cases hwrap with ⟨e, hcreate, -⟩ | ⟨s, x, hcreate, hreturn⟩
      · obtain ⟨_, hcreate, -⟩ := mapError_cases hcreate
        exact (hw.ownMoves hmoves).createThrough hissued hcreate
      · cases hreturn
        exact (hw.ownMoves hmoves).createThrough hissued (ok_of_mapError hcreate)

/-- A step that chooses no definition leaves only proxies of classes that are admitted. -/
theorem keepsAccounts_perform (catalog : Catalog) (allowance : Nat) (step : Step)
    (hstep : step.ChoosesNoDefinition) :
    (step.perform catalog (catalog.reentry allowance)).Within catalog.KeepsAccounts := by
  have hr := catalog.moves_reentry allowance
  cases step with
  | instantiate => exact hstep.elim
  | dispose =>
    refine .bind (.change fun w hw => ?_) fun _ => .pure _
    exact hw.of_same (fun _ ht => ht) (.refl _) rfl
  | register c descriptors =>
    refine .bind (.mapError within_requireAlive _) fun _ => .bind (fun w r w' h hw => ?_) fun _ =>
      .pure _
    cases h
    exact hw.register _ _
  | createThrough name v => exact keepsAccounts_createThrough hr name v
  | _ =>
    refine (Step.ownMoves_perform hr _ ?_ ?_).mono fun w w' h hw => hw.ownMoves h
    all_goals exact trivial

end Catalog

/-! ## Sessions -/

namespace Session

variable {catalog : Catalog} {allowance : Nat} {name : Option String} {step : Step} {w : World}
  {rep : Report}

/-- A step of a session leaves only proxies of classes that are admitted, and only factories that
were issued. -/
theorem accounted_report (hstep : step.ChoosesNoDefinition)
    (h : report catalog allowance name step w = some rep) (hw : catalog.Accounted w) :
    catalog.Accounted rep.world := by
  obtain ⟨outcome, calls, world⟩ := rep
  have hbegin : catalog.Accounted { w with journal := [] } :=
    hw.of_same (fun _ ht => ht) (.refl _) rfl
  have hperform := catalog.keepsAccounts_perform allowance step hstep
  rcases bind_cases (report_cases h).1 with ⟨e, herror, -⟩ | ⟨answer, u, hanswer, hrest⟩
  · exact hperform herror hbegin
  · have hu := hperform hanswer hbegin
    cases name with
    | none =>
      cases hrest
      exact hu
    | some name =>
      -- The answer goes to a variable; if that is a factory, it was issued in this step.
      cases hrest
      refine ⟨hu.proxies, fun other f hf => ?_⟩
      by_cases hother : other = name
      · subst hother
        rw [Keyed.get?_put_self] at hf
        obtain rfl : answer = .factory f := Answer.of_toVariable (Option.some.inj hf)
        have hissued := Catalog.issued_of_perform hanswer
        exact ⟨hissued.1, hissued.2⟩
      · rw [Keyed.get?_put_of_ne hother] at hf
        exact hu.factories other f hf

/-- In every state of a session, all proxies are of classes that are admitted. -/
theorem accounted_of_reaches {settings : Settings}
    (h : Reaches catalog Step.ChoosesNoDefinition (World.start settings) w) :
    catalog.Accounted w := by
  induction h with
  | start => exact .init settings
  | step _ hkind hdone ih => exact accounted_report hkind hdone ih

/-- A new instance of a class whose type has a definition is made a proxy by it. -/
theorem report_create {c : ClassRef} {d : Definition} (halive : w.exposer.alive = true)
    (hkept : w.exposer.definition? (catalog.identity c) = some d) :
    let target : Instance := ⟨w.instances.size + 1, c⟩
    ∃ rep, report catalog 0 none (.create (.fresh c)) w = some rep ∧
      rep.world = { w with
        journal := [], instances := w.instances.push {},
        heap := (w.heap.newProxy d target).1 } := by
  intro target
  let begun : World := { w with journal := [] }
  let made : World := { begun with instances := w.instances.push {} }
  have hperform : (Step.create (.fresh c)).perform catalog (catalog.reentry 0) begun =
      some (.ok (.script (.object (w.heap.newProxy d target).2)),
        { made with heap := (w.heap.newProxy d target).1 }) := by
    have hbuild : catalog.definitionOf c made = some (.ok d, made) := Catalog.build_of_kept hkept
    have hwrap : catalog.wrapInstance target made = _ := bind_ok hbuild _
    rw [Step.perform, Step.withExposer_of_alive (w := begun) halive]
    exact (bind_ok (Step.evalInstance_fresh c begun) _).trans (bind_ok (mapError_some hwrap _) _)
  exact report_of_perform none hperform

/-- An interface that has a definition can be exposed, and its factory be kept in a variable. -/
theorem report_exposeInterface {i : ClassRef} {d : Definition} (halive : w.exposer.alive = true)
    (hi : catalog.isInterface i = true)
    (hkept : w.exposer.definition? (catalog.identity i) = some d) (name : String) :
    ∃ rep, report catalog 0 (some name) (.exposeInterface i) w = some rep ∧
      rep.world = { w with journal := [], named := Keyed.put name (.factory ⟨i, d⟩) w.named } := by
  let begun : World := { w with journal := [] }
  have hperform : (Step.exposeInterface i).perform catalog (catalog.reentry 0) begun =
      some (.ok (.factory ⟨i, d⟩), begun) := by
    have hbuild : catalog.definitionOf i begun = some (.ok d, begun) := Catalog.build_of_kept hkept
    have hexpose : catalog.exposeInterface i begun = some (.ok ⟨i, d⟩, begun) := by
      unfold Catalog.exposeInterface
      rw [hi]
      exact bind_ok hbuild _
    rw [Step.perform, Step.withExposer_of_alive (w := begun) halive]
    exact bind_ok (mapError_some hexpose _) _
  exact report_of_perform (some name) hperform

/-- A factory in a variable makes a proxy of a new instance of a class that it accepts. -/
theorem report_createThrough {name : String} {f : Factory} {c : ClassRef}
    (halive : w.exposer.alive = true) (hf : Keyed.get? name w.named = some (.factory f))
    (hc : catalog.isAssignable c f.interface = true) :
    let target : Instance := ⟨w.instances.size + 1, c⟩
    ∃ rep, report catalog 0 none (.createThrough name (.fresh c)) w = some rep ∧
      rep.world = { w with
        journal := [], instances := w.instances.push {},
        heap := (w.heap.newProxy f.definition target).1 } := by
  intro target
  let begun : World := { w with journal := [] }
  let made : World := { begun with instances := w.instances.push {} }
  have hperform : (Step.createThrough name (.fresh c)).perform catalog (catalog.reentry 0) begun =
      some (.ok (.script (.object (w.heap.newProxy f.definition target).2)),
        { made with heap := (w.heap.newProxy f.definition target).1 }) := by
    have hfind : Step.findFactory name begun = some (.ok f, begun) := by
      rw [Step.findFactory, bind_ok (read_apply _ begun), hf]
      rfl
    have hcreate : catalog.createThrough f target made =
        some (.ok (.object (w.heap.newProxy f.definition target).2),
          { made with heap := (w.heap.newProxy f.definition target).1 }) := by
      rw [Catalog.createThrough, bind_ok (Catalog.requireAlive_of_alive (w := made) halive),
        if_pos hc]
      rfl
    rw [Step.perform]
    exact (bind_ok hfind _).trans ((bind_ok (Step.evalInstance_fresh c begun) _).trans
      (bind_ok (mapError_some hcreate _) _))
  exact report_of_perform none hperform

/-- An instance of a class that is admitted becomes a proxy in the next steps. -/
theorem exists_proxy_of_admits (halive : w.exposer.alive = true) {c : ClassRef}
    (h : catalog.Admits w c) :
    ∃ w' o serial, Reaches catalog Step.ChoosesNoDefinition w w' ∧
      (w'.heap.object o).target = some ⟨serial, c⟩ := by
  rcases h with hown | ⟨i, hi, hd, hc⟩
  · obtain ⟨d, hd⟩ := Option.isSome_iff_exists.1 hown
    let target : Instance := ⟨w.instances.size + 1, c⟩
    obtain ⟨rep, hrep, hworld⟩ := report_create halive hd
    refine ⟨rep.world, (w.heap.newProxy d target).2, target.serial, .step .start (by trivial) hrep, ?_⟩
    rw [hworld]
    exact w.heap.target_newProxy d target
  · obtain ⟨d, hd⟩ := Option.isSome_iff_exists.1 hd
    obtain ⟨rep, hrep, hworld⟩ := report_exposeInterface halive hi hd "factory"
    have hf : Keyed.get? "factory" rep.world.named = some (.factory ⟨i, d⟩) := by
      rw [hworld]
      exact Keyed.get?_put_self _ _ _
    have halive' : rep.world.exposer.alive = true := by
      rw [hworld]
      exact halive
    let target : Instance := ⟨rep.world.instances.size + 1, c⟩
    obtain ⟨rep', hrep', hworld'⟩ := report_createThrough halive' hf hc
    refine ⟨rep'.world, (rep.world.heap.newProxy d target).2, target.serial,
      .step (.step .start (by trivial) hrep) (by trivial) hrep', ?_⟩
    rw [hworld']
    exact rep.world.heap.target_newProxy d target

end Session

namespace Catalog

variable {catalog : Catalog}

/-- Which classes get proxies in a session in which no step chooses the definition. The instances
behind the proxies are of classes that are admitted, so all of them have a script kind as long as
the policy refuses no class that is admitted; and, as long as the exposer lives, an instance of any
class that is admitted becomes a proxy in further steps. An instance of a class that the policy
refuses, with no definition yet and nothing registered, is wrapped, unless a constructor of its class
takes a type that is refused; that is the type that wrapping then fails for. -/
theorem proxied_exactly_where_admitted {settings : Settings} {w : World}
    (hw : Session.Reaches catalog Step.ChoosesNoDefinition (World.start settings) w) :
    (∀ o target, (w.heap.object o).target = some target →
      catalog.Admits w target.runtimeClass) ∧
    ((∀ c, catalog.Admits w c → catalog.declaresNoMembers c = false) →
      ∀ o target, (w.heap.object o).target = some target →
        catalog.scriptKind (.object target.runtimeClass) = .ok .object) ∧
    (w.exposer.alive = true → ∀ c, catalog.Admits w c →
      ∃ w' o serial, Session.Reaches catalog Step.ChoosesNoDefinition w w' ∧
        (w'.heap.object o).target = some ⟨serial, c⟩) ∧
    (∀ target, catalog.declaresNoMembers target.runtimeClass = true →
      catalog.RegisteredAlike w.exposer.registrations [] target.runtimeClass →
      w.exposer.definition? (catalog.identity target.runtimeClass) = none →
      (catalog.Constructible target.runtimeClass ∧ ∃ o w',
          catalog.toScript (.object target) w = some (.ok (.object o), w') ∧
            (w'.heap.object o).target = some target) ∨
        ¬ catalog.Constructible target.runtimeClass ∧
          ∃ e, catalog.Refuses e ∧
            catalog.toScript (.object target) w = some (.error (.conversion e), w)) := by
  have haccounted := Session.accounted_of_reaches hw
  refine ⟨haccounted.proxies, fun haccepted o target ho => ?_,
    fun halive c => Session.exists_proxy_of_admits halive, fun target hrefused hregistered hnone => ?_⟩
  · rw [scriptKind, haccepted _ (haccounted.proxies o target ho)]
    rfl
  · rw [toScript]
    exact wrapInstance_of_refused hrefused hregistered hnone

/-- A lamp with a level, and a ghost, which has no members. -/
def attic : Catalog where
  decls :=
    [{ (default : ClassDecl) with
        identity := ⟨1⟩, name := "Lamp"
        properties := [⟨"level", .int .i32, some (.property none false), none, .abstract true⟩] },
      { (default : ClassDecl) with identity := ⟨2⟩, name := "Ghost" }]
  restsOn := by decide

/-- Once a lamp has its proxy, all proxies are of classes that the policy accepts; but a ghost would
get one as well. -/
theorem lamp_proxied : ∃ rep,
    Session.report attic 0 none (.create (.fresh ⟨0⟩)) (World.start {}) = some rep ∧
      (∀ o target, (rep.world.heap.object o).target = some target →
        attic.scriptKind (.object target.runtimeClass) = .ok .object) ∧
      ∃ o w', attic.toScript (.object ⟨2, ⟨1⟩⟩) rep.world = some (.ok (.object o), w') ∧
        (w'.heap.object o).target = some ⟨2, ⟨1⟩⟩ := by
  have hsession : ∃ rep d,
      Session.report attic 0 none (.create (.fresh ⟨0⟩)) (World.start {}) = some rep ∧
        rep.world.exposer.definitions = [(⟨1⟩, d)] ∧ rep.world.exposer.registrations = [] :=
    ⟨_, _, rfl, rfl, rfl⟩
  obtain ⟨rep, d, hrep, hdefinitions, hregistrations⟩ := hsession
  obtain ⟨-, haccepts, -, hrefuses⟩ :=
    proxied_exactly_where_admitted (.step .start (by trivial) hrep)
  -- Only the type of lamps has a definition.
  have hlamp : ∀ c, (rep.world.exposer.definition? (attic.identity c)).isSome = true →
      c = ⟨0⟩ := by
    rintro ⟨_ | _ | place⟩ hc
    · rfl
    · rw [Exposer.definition?, hdefinitions] at hc
      cases hc
    · rw [Exposer.definition?, hdefinitions] at hc
      cases hc
  refine ⟨rep, hrep, haccepts fun c hc => ?_, ?_⟩
  · rcases hc with hown | ⟨i, hi, hd, -⟩
    · rw [hlamp c hown]
      rfl
    · rw [hlamp i hd] at hi
      cases hi
  · have hnone : rep.world.exposer.definition? (attic.identity ⟨1⟩) = none := by
      rw [Exposer.definition?, hdefinitions]
      rfl
    have hregistered : attic.RegisteredAlike rep.world.exposer.registrations [] ⟨1⟩ := by
      rw [hregistrations]
      exact fun _ _ => rfl
    rcases hrefuses ⟨2, ⟨1⟩⟩ rfl hregistered hnone with ⟨-, hproxy⟩ | ⟨hnot, -⟩
    · exact hproxy
    · exact absurd (.inr (List.forall_mem_nil _)) hnot

/-- A ghost gets a proxy, though the policy refuses its class. -/
theorem ghost_proxied :
    attic.scriptKind (.object ⟨1⟩) = .error (.unsupported "Ghost") ∧
      ∃ w o, Session.Reaches attic Step.ChoosesNoDefinition (World.start {}) w ∧
        (w.heap.object o).target = some ⟨1, ⟨1⟩⟩ := by
  have hsession : ∃ rep o,
      Session.report attic 0 none (.create (.fresh ⟨1⟩)) (World.start {}) = some rep ∧
        (rep.world.heap.object o).target = some ⟨1, ⟨1⟩⟩ :=
    ⟨_, ⟨2⟩, rfl, rfl⟩
  obtain ⟨rep, o, hrep, ho⟩ := hsession
  exact ⟨rfl, rep.world, o, .step .start (by trivial) hrep, ho⟩

end Catalog

end ScriptBoundary
