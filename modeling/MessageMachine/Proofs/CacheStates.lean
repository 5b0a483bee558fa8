import MessageMachine.Proofs.CacheChain
import MessageMachine.Proofs.Dispatch

/-!
# The states of inline caches

What a send site remembers is decided by the receiver categories that it was asked for since the
last installation, wherever that was.  While the site is not megamorphic, the entries of the current
version are those of these categories, the one seen first standing last.  The site turns megamorphic
when there are more categories than it may remember, and that is the only way.

An action does one of four things to a site: it leaves the site alone, it is answered by the site,
it lets the site record an entry, or it installs a method and lets all entries pass.  Everything
else follows from these.
-/

namespace MessageMachine

/-- The receiver categories that a site was asked for successfully since the last installation, the
latest one first, after one more action. -/
def Action.categorize (site : CallSiteRef) (image : Image) (seen : List Guard) :
    Action → List Guard
  | .install _ _ _ => []
  | .resolve other selector receiver =>
      if other = site ∧ (image.lookupAt other selector receiver).1.isSome then
        seen.insert (image.guardOf receiver)
      else seen
  | _ => seen

namespace Image

/-- A history as seen from a send site: the image that it leads to, and the receiver categories that
the site was asked for since the last installation. -/
def recount (start : Image) (site : CallSiteRef) (actions : List Action) : Image × List Guard :=
  actions.foldl
    (fun state action => (action.perform state.1, action.categorize site state.1 state.2))
    (start, [])

/-- The receiver categories that a site was asked for successfully since the last installation of a
history, each one once, the one seen first last. -/
def categories (start : Image) (site : CallSiteRef) (actions : List Action) : List Guard :=
  (start.recount site actions).2

theorem recount_append (start : Image) (site : CallSiteRef) (actions : List Action)
    (action : Action) :
    start.recount site (actions ++ [action]) =
      (action.perform (start.recount site actions).1,
        action.categorize site (start.recount site actions).1 (start.recount site actions).2) := by
  simp only [recount, List.foldl_append, List.foldl_cons, List.foldl_nil]

theorem Reaches.fst_recount {start image : Image} {actions : List Action}
    (reached : start.Reaches actions image) (site : CallSiteRef) :
    (start.recount site actions).1 = image := by
  induction reached with
  | start => rfl
  | act action _ _ inductionHypothesis => rw [recount_append, inductionHypothesis]

theorem Reaches.categories_append {start image : Image} {actions : List Action}
    (reached : start.Reaches actions image) (site : CallSiteRef) (action : Action) :
    start.categories site (actions ++ [action]) =
      action.categorize site image (start.categories site actions) := by
  rw [categories, recount_append, reached.fst_recount]
  rfl

/-- What an action does to a send site that belongs to a send, and to the categories that the site
was asked for. -/
inductive SiteStep (image : Image) (site : CallSiteRef) (seen : List Guard) (after : Image)
    (now : List Guard) : Prop
  | idle (cache : after.sites.calls.get site = image.sites.calls.get site)
      (version : after.sites.version = image.sites.version)
      (methods : after.methods.size = image.methods.size) (same : now = seen)
  /-- The site answers from what it remembers. -/
  | answered (guard : Guard) (unchanged : after = image)
      (hit : ((image.sites.calls.get site).target? guard image.sites.version).isSome)
      (counted : now = seen.insert guard)
  | recorded (entry : CacheEntry)
      (miss : (image.sites.calls.get site).target? entry.guard image.sites.version = none)
      (dated : entry.version = image.sites.version)
      (cache : after.sites.calls.get site =
        (image.sites.calls.get site).record entry image.settings.cacheSize)
      (version : after.sites.version = image.sites.version)
      (methods : after.methods.size = image.methods.size)
      (counted : now = seen.insert entry.guard)
  | installed (cache : after.sites.calls.get site = image.sites.calls.get site)
      (version : after.sites.version = image.sites.version + 1)
      (methods : after.methods.size = image.methods.size + 1) (fresh : now = [])

/-- A lookup that the site can answer changes nothing. -/
theorem lookupAt_of_hit {image : Image} {site : CallSiteRef} {receiver : Value}
    {target : MethodRef} (selector : Selector)
    (hit : (image.sites.calls.get site).target? (image.guardOf receiver) image.sites.version =
      some target) :
    image.lookupAt site selector receiver = (some target, image) := by
  simp only [lookupAt, hit]

/-- A lookup that finds nothing changes nothing. -/
theorem lookupAt_of_fst_eq_none {image : Image} {site : CallSiteRef} {selector : Selector}
    {receiver : Value} (failed : (image.lookupAt site selector receiver).1 = none) :
    (image.lookupAt site selector receiver).2 = image := by
  rcases image.lookupAt_cases site selector receiver with
    ⟨target, -, result⟩ | ⟨-, result⟩ | ⟨target, journal, -, result⟩
  · rw [result]
  · rw [result]
  · rw [result] at failed
    cases failed

/-- A send site that belongs to a send exists. -/
theorem Sends.has {image : Image} {site : CallSiteRef} {selector : Selector}
    (sends : image.Sends site selector) (formed : image.WellFormed) :
    image.sites.calls.Has site := by
  rcases sends with outlined | ⟨control, message, outlined⟩
  · exact (formed.placed _ outlined).call site rfl
  · exact (formed.placed _ outlined).call site rfl

end Image

open Image

/-- What a lookup at a send site does to that site. -/
theorem Action.siteStep_resolve {image : Image} {site : CallSiteRef} {selector : Selector}
    (has : image.sites.calls.Has site) (receiver : Value) (seen : List Guard) :
    image.SiteStep site seen ((Action.resolve site selector receiver).perform image)
      ((Action.resolve site selector receiver).categorize site image seen) := by
  simp only [Action.perform, Action.categorize, true_and]
  cases hit : (image.sites.calls.get site).target? (image.guardOf receiver)
      image.sites.version with
  | some target =>
      rw [lookupAt_of_hit selector hit]
      exact .answered (image.guardOf receiver) rfl (by rw [hit]; rfl) rfl
  | none =>
      rcases image.lookupAt_cases site selector receiver with
        ⟨target, found, -⟩ | ⟨-, result⟩ | ⟨target, journal, -, result⟩
      · rw [hit] at found
        cases found
      · rw [result]
        exact .idle rfl rfl rfl rfl
      · rw [result]
        refine .recorded ⟨image.guardOf receiver, target, image.sites.version⟩ hit rfl ?_ rfl rfl
          rfl
        simp only [setCallSite, Arena.get_set]
        rw [if_pos ⟨trivial, has⟩]

/-- What an allowed action does to a send site. -/
theorem Action.siteStep_perform {image : Image} {action : Action} (formed : image.WellFormed)
    (allowed : action.Allowed image) {site : CallSiteRef} {selector : Selector}
    (sends : image.Sends site selector) (seen : List Guard) :
    image.SiteStep site seen (action.perform image) (action.categorize site image seen) := by
  have tended : ∀ {good : Value → Prop} {after : Image}, Tended good image after →
      image.SiteStep site seen after seen := fun tended =>
    .idle (by rw [tended.calls]) tended.version (by rw [tended.methods]) rfl
  cases action with
  | readField receiver index => exact tended (readField_tended image receiver index)
  | writeField receiver index value => exact tended (writeField_tended allowed.2 receiver index)
  | readFieldAt other receiver index =>
      exact tended (readFieldAt_tended image other receiver index)
  | writeFieldAt other receiver index value =>
      exact tended (writeFieldAt_tended allowed.2.1 other receiver index)
  | resolve other otherSelector receiver =>
      by_cases same : other = site
      · subst same
        exact siteStep_resolve (sends.has formed) receiver seen
      · have skipped : (Action.resolve other otherSelector receiver).categorize site image seen =
            seen := if_neg fun both => same both.1
        rw [skipped]
        simp only [perform]
        rcases image.lookupAt_cases other otherSelector receiver with
          ⟨target, -, result⟩ | ⟨-, result⟩ | ⟨target, journal, -, result⟩
        · rw [result]
          exact .idle rfl rfl rfl rfl
        · rw [result]
          exact .idle rfl rfl rfl rfl
        · rw [result]
          refine .idle ?_ rfl rfl rfl
          simp only [setCallSite, Arena.get_set]
          rw [if_neg fun both => same both.1.symm]
  | resolveSuper other origin otherSelector =>
      have different : other ≠ site := by
        rintro rfl
        exact formed.not_sendsSuper sends allowed
      simp only [perform]
      rcases image.lookupSuperAt_cases other origin otherSelector with
        ⟨entry, -, -, result⟩ | ⟨-, result⟩ | ⟨target, -, result⟩
      · rw [result]
        exact .idle rfl rfl rfl rfl
      · rw [result]
        exact .idle rfl rfl rfl rfl
      · rw [result]
        refine .idle ?_ rfl rfl rfl
        simp only [setCallSite, Arena.get_set]
        rw [if_neg fun both => different both.1.symm]
  | allocate sites => exact .idle (allowed.calls site) allowed.version rfl rfl
  | install holder otherSelector behavior =>
      obtain ⟨journal, installed⟩ := image.addMethod_eq holder otherSelector behavior
      simp only [perform, installed]
      exact .installed rfl rfl (Arena.size_push _ _) rfl
  | noteDown | meet | draw | makeArray | setElement | makeBlock | instantiate | enter | setSlot
  | leave | settle | bind | remove | register => exact .idle rfl rfl rfl rfl

/-- Nothing comes after the last state. -/
theorem CacheState.eq_megamorphic_of_rank_le {state : CacheState}
    (last : CacheState.megamorphic.rank ≤ state.rank) : state = .megamorphic := by
  cases state with
  | megamorphic => rfl
  | uninitialized | monomorphic | polymorphic => exact absurd last (by decide)

namespace Image

/-- The state of a send site only moves forward. -/
theorem SiteStep.rank_le {image after : Image} {site : CallSiteRef} {seen now : List Guard}
    (step : image.SiteStep site seen after now) :
    (image.sites.calls.get site).state.rank ≤ (after.sites.calls.get site).state.rank := by
  cases step with
  | idle cache | installed cache => exact Nat.le_of_eq (by rw [cache])
  | answered guard unchanged => exact Nat.le_of_eq (by rw [unchanged])
  | recorded entry _ _ cache =>
      rw [cache]
      exact DispatchCache.rank_state_record _ entry _

theorem Reaches.rank_le {image later : Image} {actions : List Action}
    (reached : image.Reaches actions later) (formed : image.WellFormed) {site : CallSiteRef}
    {selector : Selector} (sends : image.Sends site selector) :
    (image.sites.calls.get site).state.rank ≤ (later.sites.calls.get site).state.rank := by
  induction reached with
  | start => exact Nat.le_refl _
  | act action earlier allowed inductionHypothesis =>
      have step := Action.siteStep_perform (earlier.wellFormed formed) allowed
        (sends.mono earlier.extended) []
      exact Nat.le_trans inductionHypothesis step.rank_le

/-- The settings of a machine are never changed. -/
theorem settings_perform {image : Image} {action : Action} (allowed : action.Allowed image) :
    (action.perform image).settings = image.settings := by
  cases action with
  | readField receiver index => exact (Action.readField_tended image receiver index).settings
  | writeField receiver index value =>
      exact (Action.writeField_tended allowed.2 receiver index).settings
  | readFieldAt site receiver index =>
      exact (Action.readFieldAt_tended image site receiver index).settings
  | writeFieldAt site receiver index value =>
      exact (Action.writeFieldAt_tended allowed.2.1 site receiver index).settings
  | resolve site selector receiver =>
      obtain ⟨calls, journal, -, result⟩ := image.lookupAt_eq site selector receiver
      rw [Action.perform, result]
  | resolveSuper site origin selector =>
      obtain ⟨calls, -, result⟩ := image.lookupSuperAt_eq site origin selector
      rw [Action.perform, result]
  | install holder selector behavior =>
      obtain ⟨journal, installed⟩ := image.addMethod_eq holder selector behavior
      rw [Action.perform, installed]
  | _ => rfl

theorem Reaches.settings {start image : Image} {actions : List Action}
    (reached : start.Reaches actions image) : image.settings = start.settings := by
  induction reached with
  | start => rfl
  | act action _ allowed inductionHypothesis =>
      exact (settings_perform allowed).trans inductionHypothesis

/-- The version of the dictionaries is the number of methods, as a word. -/
theorem Reaches.version {platform : Platform} {settings : Settings} {listening : Bool}
    {image : Image} {actions : List Action}
    (reached : (initial platform settings listening).Reaches actions image) :
    image.sites.version = UInt32.ofNat image.methods.size := by
  induction reached with
  | start => exact (attuned_initial platform settings listening).version
  | @act actions image action earlier allowed inductionHypothesis =>
      cases installs : action.installs with
      | false =>
          have formed := earlier.wellFormed (wellFormed_initial platform settings listening)
          rw [(recorded_perform formed allowed installs).1,
            Action.methods_of_not_installs image installs]
          exact inductionHypothesis
      | true =>
          cases action with
          | install holder selector behavior =>
              obtain ⟨journal, installed⟩ := image.addMethod_eq holder selector behavior
              simp only [Action.perform, installed, Arena.size_push, inductionHypothesis]
              simp
          | _ => cases installs

/-- Every entry was made when there was a certain number of methods, no fewer than at the
beginning. -/
def AllDated (image : Image) (base : Nat) (cache : DispatchCache) : Prop :=
  ∀ entry ∈ cache.entries, ∃ count, base ≤ count ∧ count ≤ image.methods.size ∧
    entry.version = UInt32.ofNat count

/-- A send site that is not megamorphic remembers the categories that it was asked for since the
last installation, and they are no more than it may remember. -/
structure Remembers (image : Image) (base : Nat) (site : CallSiteRef) (seen : List Guard) :
    Prop where
  small : seen.length ≤ image.settings.cacheSize
  dated : image.AllDated base (image.sites.calls.get site)
  charted : ∃ fresh stale,
    (image.sites.calls.get site).Charts image.settings.cacheSize image.sites.version fresh stale ∧
      fresh.map CacheEntry.guard = seen

section Steps

variable {image after : Image} {base : Nat} {site : CallSiteRef} {seen now : List Guard}

theorem AllDated.of_eq {cache : DispatchCache} (dated : image.AllDated base cache)
    (more : image.methods.size ≤ after.methods.size) : after.AllDated base cache := by
  intro entry member
  obtain ⟨count, above, below, version⟩ := dated entry member
  exact ⟨count, above, Nat.le_trans below more, version⟩

/-- When one more method is installed all dates have passed, as long as the words that stand for
them have not wrapped around. -/
theorem AllDated.passed {cache : DispatchCache} (dated : image.AllDated base cache)
    (few : image.methods.size + 1 < base + UInt32.size) {entry : CacheEntry}
    (member : entry ∈ cache.entries) :
    entry.version ≠ UInt32.ofNat (image.methods.size + 1) := by
  intro same
  obtain ⟨count, above, below, date⟩ := dated entry member
  have numbers := congrArg UInt32.toNat (date.symm.trans same)
  simp only [UInt32.toNat_ofNat'] at numbers
  simp only [UInt32.size] at few
  omega

/-- One action at a site that remembers all categories: it goes on to do so, or the number of
categories exceeds the bound and the site turns megamorphic. -/
theorem SiteStep.remembers (step : image.SiteStep site seen after now)
    (remembers : image.Remembers base site seen) (positive : 1 ≤ image.settings.cacheSize)
    (settings : after.settings = image.settings)
    (version : image.sites.version = UInt32.ofNat image.methods.size)
    (since : base ≤ image.methods.size) (few : after.methods.size < base + UInt32.size) :
    (image.settings.cacheSize < now.length ∧
        (after.sites.calls.get site).state = .megamorphic) ∨
      after.Remembers base site now := by
  obtain ⟨small, dated, fresh, stale, charts, guards⟩ := remembers
  cases step with
  | idle cache sameVersion methods same =>
      subst same
      refine Or.inr ⟨settings ▸ small, ?_, fresh, stale, ?_, guards⟩
      · rw [cache]
        exact dated.of_eq (Nat.le_of_eq methods.symm)
      · rw [cache, settings, sameVersion]
        exact charts
  | answered guard unchanged hit counted =>
      have known : guard ∈ seen := guards ▸ (charts.isSome_target?_iff guard).mp hit
      rw [List.insert_of_mem known] at counted
      subst unchanged counted
      exact Or.inr ⟨small, dated, fresh, stale, charts, guards⟩
  | recorded entry miss current cache sameVersion methods counted =>
      have unseen : entry.guard ∉ fresh.map CacheEntry.guard := by
        intro known
        have hit := (charts.isSome_target?_iff entry.guard).mpr known
        rw [miss] at hit
        cases hit
      have length : now.length = fresh.length + 1 := by
        rw [counted, ← guards, List.insert_of_not_mem unseen, List.length_cons, List.length_map]
      rw [← current] at charts
      rcases charts.record positive unseen with ⟨exceeded, full⟩ | ⟨room, kept, recharted⟩
      · refine Or.inl ⟨length ▸ exceeded, ?_⟩
        rw [cache, full]
        rfl
      · refine Or.inr ⟨by rw [settings, length]; exact room, ?_, entry :: fresh, kept, ?_, ?_⟩
        · intro other member
          rw [cache] at member
          rcases DispatchCache.mem_record member with rfl | old
          · exact ⟨image.methods.size, since, Nat.le_of_eq methods.symm, current.trans version⟩
          · exact dated.of_eq (Nat.le_of_eq methods.symm) other old
        · rw [cache, settings, sameVersion, ← current]
          exact recharted
        · rw [counted, ← guards, List.insert_of_not_mem unseen, List.map_cons]
  | installed cache next methods empty =>
      subst empty
      have current : after.sites.version = UInt32.ofNat (image.methods.size + 1) := by
        rw [next, version]
        simp
      rw [methods] at few
      refine Or.inr ⟨Nat.zero_le _, ?_, [], fresh ++ stale, ?_, rfl⟩
      · rw [cache]
        exact dated.of_eq (by rw [methods]; exact Nat.le_succ _)
      · rw [cache, settings, current]
        exact charts.renew fun _ member => dated.passed few member

end Steps

/-- Whether at some point of a history there were more categories than a site may remember. -/
def Exceeds (start : Image) (site : CallSiteRef) (bound : Nat) (actions : List Action) : Prop :=
  ∃ earlier, earlier <+: actions ∧ bound < (start.categories site earlier).length

theorem exceeds_append {start : Image} {site : CallSiteRef} {bound : Nat}
    {actions : List Action} {action : Action} :
    start.Exceeds site bound (actions ++ [action]) ↔
      start.Exceeds site bound actions ∨
        bound < (start.categories site (actions ++ [action])).length := by
  constructor
  · rintro ⟨earlier, isPrefix, exceeded⟩
    rcases List.prefix_concat_iff.mp isPrefix with rfl | before
    · exact Or.inr exceeded
    · exact Or.inl ⟨earlier, before, exceeded⟩
  · rintro (⟨earlier, before, exceeded⟩ | exceeded)
    · exact ⟨earlier, before.trans (List.prefix_append _ _), exceeded⟩
    · exact ⟨_, List.prefix_rfl, exceeded⟩

/-- What a history has made of a send site. -/
structure Charted (start image : Image) (site : CallSiteRef) (actions : List Action) : Prop where
  /-- A site that belongs to a send is megamorphic, or remembers what it was asked for. -/
  owned : ∀ selector, image.Sends site selector →
    (start.Exceeds site image.settings.cacheSize actions ∧
        (image.sites.calls.get site).state = .megamorphic) ∨
      (¬ start.Exceeds site image.settings.cacheSize actions ∧
        image.Remembers start.methods.size site (start.categories site actions))
  /-- Any other site was never asked. -/
  foreign : (∀ selector, ¬ image.Sends site selector) →
    ¬ start.Exceeds site image.settings.cacheSize actions ∧ start.categories site actions = []

/-- A site that belongs to no send yet is not asked. -/
theorem categorize_of_not_sends {image : Image} {site : CallSiteRef} {action : Action}
    (foreign : ∀ selector, ¬ image.Sends site selector) (allowed : action.Allowed image) :
    action.categorize site image [] = [] := by
  cases action with
  | resolve other selector receiver =>
      refine if_neg fun both => foreign selector ?_
      rw [← both.1]
      exact allowed.2
  | _ => rfl

/-- A site that comes to belong to a send remembers nothing yet. -/
theorem uninitialized_of_new_send {image : Image} {site : CallSiteRef} {action : Action}
    {selector : Selector} (allowed : action.Allowed image)
    (foreign : ∀ selector, ¬ image.Sends site selector)
    (sends : (action.perform image).Sends site selector) :
    (action.perform image).sites.calls.get site = .uninitialized := by
  cases installs : action.installs with
  | false =>
      have methods := Action.methods_of_not_installs image installs
      refine absurd ?_ (foreign selector)
      simpa only [Sends, Outlines, methodAt, methods] using sends
  | true =>
      cases action with
      | install holder other behavior =>
          have unused : image.sites.calls.get site = .uninitialized := by
            rcases sends with outlined | ⟨control, message, outlined⟩
            · rcases outlines_install outlined with old | new
              · exact absurd (Or.inl old) (foreign selector)
              · exact (allowed.2.callsUnused _ new site rfl).1
            · rcases outlines_install outlined with old | new
              · exact absurd (Or.inr ⟨control, message, old⟩) (foreign selector)
              · exact (allowed.2.callsUnused _ new site rfl).1
          obtain ⟨journal, installed⟩ := image.addMethod_eq holder other behavior
          simp only [Action.perform, installed]
          exact unused
      | _ => cases installs

theorem Remembers.uninitialized {image : Image} {site : CallSiteRef} (base : Nat)
    (unused : image.sites.calls.get site = .uninitialized) : image.Remembers base site [] where
  small := Nat.zero_le _
  dated := by
    rw [unused]
    intro entry member
    cases member
  charted := by
    rw [unused]
    exact ⟨[], [], .uninitialized _ _, rfl⟩

theorem Charted.act {platform : Platform} {settings : Settings} {listening : Bool}
    {actions : List Action} {image : Image}
    (reached : (initial platform settings listening).Reaches actions image)
    {site : CallSiteRef}
    (charted : (initial platform settings listening).Charted image site actions) {action : Action}
    (allowed : action.Allowed image) (positive : 1 ≤ settings.cacheSize)
    (few : (action.perform image).methods.size <
      (initial platform settings listening).methods.size + UInt32.size) :
    (initial platform settings listening).Charted (action.perform image) site
      (actions ++ [action]) := by
  have formed := reached.wellFormed (wellFormed_initial platform settings listening)
  have extended := Action.extends_perform allowed
  have unchanged := settings_perform allowed
  have counted := reached.categories_append site action
  have fixed : image.settings = settings :=
    reached.settings.trans (settings_initial platform settings listening)
  by_cases earlier : ∃ selector, image.Sends site selector
  · obtain ⟨selector, sends⟩ := earlier
    have step := Action.siteStep_perform formed allowed sends
      ((initial platform settings listening).categories site actions)
    rw [← counted] at step
    refine ⟨fun _ _ => ?_, fun foreign => absurd (sends.mono extended) (foreign selector)⟩
    rw [unchanged, exceeds_append]
    rcases charted.owned selector sends with ⟨exceeded, full⟩ | ⟨fits, remembers⟩
    · have forward := step.rank_le
      rw [full] at forward
      exact Or.inl ⟨Or.inl exceeded, CacheState.eq_megamorphic_of_rank_le forward⟩
    · rcases step.remembers remembers (fixed ▸ positive) unchanged reached.version
        reached.extended.methods few with ⟨exceeded, full⟩ | still
      · exact Or.inl ⟨Or.inr exceeded, full⟩
      · have small := still.small
        rw [unchanged] at small
        exact Or.inr ⟨fun exceeded => exceeded.elim fits (Nat.not_lt.mpr small), still⟩
  · have foreign : ∀ selector, ¬ image.Sends site selector := fun selector sends =>
      earlier ⟨selector, sends⟩
    obtain ⟨fits, none⟩ := charted.foreign foreign
    rw [none, categorize_of_not_sends foreign allowed] at counted
    have fitsStill : ¬ (initial platform settings listening).Exceeds site
        (action.perform image).settings.cacheSize (actions ++ [action]) := by
      rw [unchanged, exceeds_append, counted]
      exact fun exceeded => exceeded.elim fits (Nat.not_lt_zero _)
    refine ⟨fun selector sends => Or.inr ⟨fitsStill, ?_⟩, fun _ => ⟨fitsStill, counted⟩⟩
    rw [counted]
    exact .uninitialized _ (uninitialized_of_new_send allowed foreign sends)

theorem Reaches.charted {platform : Platform} {settings : Settings} {listening : Bool}
    {actions : List Action} {image : Image}
    (reached : (initial platform settings listening).Reaches actions image)
    (positive : 1 ≤ settings.cacheSize)
    (few : image.methods.size < (initial platform settings listening).methods.size + UInt32.size)
    (site : CallSiteRef) : (initial platform settings listening).Charted image site actions := by
  induction reached with
  | start =>
      have codeless := codeless_initial platform settings listening
      have foreign : ∀ selector, ¬ (initial platform settings listening).Sends site selector := by
        intro selector sends
        exact Arena.not_has_of_size_eq_zero codeless.calls site
          (sends.has (wellFormed_initial platform settings listening))
      refine ⟨fun selector sends => absurd sends (foreign selector), fun _ => ⟨?_, rfl⟩⟩
      rintro ⟨earlier, isPrefix, exceeded⟩
      rw [List.prefix_nil.mp isPrefix] at exceeded
      exact Nat.not_lt_zero _ exceeded
  | act action earlier allowed inductionHypothesis =>
      have less := (Action.extends_perform allowed).methods
      exact (inductionHypothesis (Nat.lt_of_le_of_lt less few)).act earlier allowed positive few

end Image

/-- In every image that a machine reaches with fewer installations than there are words, the state
of a send site is decided by the receiver categories that it was asked for.  The state only moves
forward, a lookup that fails changes nothing, and a megamorphic site stays megamorphic.  The guards
of a chain are distinct, one if the site is monomorphic, and two or more up to the bound if it is
polymorphic.  While the site is not megamorphic, the entries of the current version stand in front,
and their guards are the categories that the site was asked for since the last installation.  It is
megamorphic exactly if at some point these were more than the bound. -/
theorem caches_follow_categories {platform : Platform} {settings : Settings} {listening : Bool}
    {actions : List Action} {image : Image}
    (reached : (Image.initial platform settings listening).Reaches actions image)
    (positive : 1 ≤ settings.cacheSize) (few : Image.installations actions < UInt32.size)
    {site : CallSiteRef} {selector : Selector} (sends : image.Sends site selector) :
    (∀ more later, image.Reaches more later →
      (image.sites.calls.get site).state.rank ≤ (later.sites.calls.get site).state.rank ∧
        ((image.sites.calls.get site).state = .megamorphic →
          (later.sites.calls.get site).state = .megamorphic)) ∧
    (∀ receiver, (image.lookupAt site selector receiver).1 = none →
      (image.lookupAt site selector receiver).2 = image) ∧
    ((image.sites.calls.get site).entries.map CacheEntry.guard).Nodup ∧
    ((image.sites.calls.get site).state = .monomorphic →
      (image.sites.calls.get site).entries.length = 1) ∧
    ((image.sites.calls.get site).state = .polymorphic →
      2 ≤ (image.sites.calls.get site).entries.length ∧
        (image.sites.calls.get site).entries.length ≤ settings.cacheSize) ∧
    ((image.sites.calls.get site).state ≠ .megamorphic →
      (image.sites.calls.get site).entries.filter
          (fun entry => entry.version == image.sites.version) <+:
        (image.sites.calls.get site).entries ∧
      ((image.sites.calls.get site).entries.filter
          (fun entry => entry.version == image.sites.version)).map CacheEntry.guard =
        (Image.initial platform settings listening).categories site actions) ∧
    ((image.sites.calls.get site).state = .megamorphic ↔
      ∃ earlier, earlier <+: actions ∧
        settings.cacheSize <
          ((Image.initial platform settings listening).categories site earlier).length) := by
  have formed := reached.wellFormed (wellFormed_initial platform settings listening)
  have fixed : image.settings = settings :=
    reached.settings.trans (settings_initial platform settings listening)
  have bounded : image.methods.size <
      (Image.initial platform settings listening).methods.size + UInt32.size := by
    rw [reached.size_methods]
    omega
  have forward : ∀ more later, image.Reaches more later →
      (image.sites.calls.get site).state.rank ≤ (later.sites.calls.get site).state.rank ∧
        ((image.sites.calls.get site).state = .megamorphic →
          (later.sites.calls.get site).state = .megamorphic) := by
    intro more later further
    have rank := further.rank_le formed sends
    exact ⟨rank, fun full => CacheState.eq_megamorphic_of_rank_le (full ▸ rank)⟩
  refine ⟨forward, fun receiver => lookupAt_of_fst_eq_none, ?_⟩
  have owned := (reached.charted positive bounded site).owned selector sends
  rw [fixed] at owned
  rcases owned with ⟨exceeded, full⟩ | ⟨fits, -, -, fresh, stale, charts, guards⟩
  · have nothing : (image.sites.calls.get site).entries = [] := by
      cases cache : image.sites.calls.get site with
      | megamorphic => rfl
      | uninitialized | monomorphic | polymorphic =>
          rw [cache] at full
          cases full
    rw [full, nothing]
    exact ⟨List.nodup_nil, fun other => (by cases other), fun other => (by cases other),
      fun held => absurd rfl held, fun _ => exceeded, fun _ => rfl⟩
  · refine ⟨charts.distinct, fun single => ?_, fixed ▸ charts.several, fun _ => ?_,
      fun full => absurd full charts.held, fun exceeded => absurd exceeded fits⟩
    · cases cache : image.sites.calls.get site with
      | monomorphic entry => rfl
      | uninitialized | polymorphic | megamorphic =>
          rw [cache] at single
          cases single
    · rw [charts.filter_eq]
      exact ⟨⟨stale, charts.entries.symm⟩, guards⟩

/-- A session in which a send site is asked for instances of a class and of its subclass. -/
def mixingSession : List Request :=
  [.defineClass {
      name := "Walker"
      superclass := none
      fields := []
      methods := [
        { selector := "walk", parameters := 0, body := .expressions 0 [.send .self "step" []] },
        { selector := "step", parameters := 0, body := .expressions 0 [] }]
      classFields := []
      classMethods := [] },
    .defineClass {
      name := "Runner"
      superclass := some "Walker"
      fields := []
      methods := []
      classFields := []
      classMethods := [] },
    .instantiate ⟨37⟩,
    .instantiate ⟨39⟩,
    .send "walk" (.object ⟨0⟩) [],
    .send "walk" (.object ⟨1⟩) []]

/-- The image after that session, on a machine whose sites remember one target. -/
def mixingImage : Image :=
  (Request.serveAll (.ofBudget 4) mixingSession
    (.initial .plain { cacheSize := 1, specializeControl := true } false)).2

/-- The site has turned megamorphic, so that there were two categories at once. -/
theorem caches_follow_categories_mixing :
    mixingImage.Sends ⟨0⟩ "step" ∧
      (mixingImage.sites.calls.get ⟨0⟩).state = .megamorphic ∧
      ∃ actions, (Image.initial .plain { cacheSize := 1, specializeControl := true } false).Reaches
          actions mixingImage ∧
        ∃ earlier, earlier <+: actions ∧
          1 < ((Image.initial .plain { cacheSize := 1, specializeControl := true }
            false).categories ⟨0⟩ earlier).length := by
  have admissible : Request.Throughout (.ofBudget 4) (fun image request =>
      request.Admissible image ∧ (request.removes = true → False)) mixingSession
      (.initial .plain { cacheSize := 1, specializeControl := true } false) := by decide +kernel
  have sends : mixingImage.Sends ⟨0⟩ "step" := Or.inl ⟨⟨86⟩, by decide +kernel⟩
  have full : (mixingImage.sites.calls.get ⟨0⟩).state = .megamorphic := by decide +kernel
  obtain ⟨actions, history, -⟩ := Request.serveAll_reaches
    (Image.wellFormed_initial .plain { cacheSize := 1, specializeControl := true } false) 4
    mixingSession admissible .start (List.forall_mem_nil _)
  change (Image.initial .plain { cacheSize := 1, specializeControl := true } false).Reaches actions
    mixingImage at history
  have few : Image.installations actions < UInt32.size := by
    have count := history.size_methods
    have total : mixingImage.methods.size = (Image.initial .plain
        { cacheSize := 1, specializeControl := true } false).methods.size + 2 := by decide +kernel
    simp only [UInt32.size]
    omega
  obtain ⟨-, -, -, -, -, -, exceeded⟩ :=
    caches_follow_categories history (Nat.le_refl 1) few sends
  exact ⟨sends, full, actions, history, exceeded.mp full⟩

end MessageMachine
