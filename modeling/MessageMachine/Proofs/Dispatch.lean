import MessageMachine.Proofs.Lookup
import MessageMachine.Proofs.Session

/-!
# Inline caches are sound

An entry of an inline cache is dated by the version of the method dictionaries, which is a word that
counts installations and wraps around.  The invariant gives every entry the true number of methods
at the time it was made.  If that is the number of methods now, then the entry holds what a full
lookup finds now; an installation makes the number larger, so that nothing is left to show for the
entries that were there before.  As long as the number of installations stays below the number of
words, two dates with the same word are the same date.

Sends with a selector and sends to super have sites of their own, so that one and the same entry is
never consulted for two different questions.
-/

namespace MessageMachine

namespace DispatchCache

/-- Recording an entry brings in no other entry. -/
theorem mem_record {cache : DispatchCache} {entry other : CacheEntry} {bound : Nat}
    (member : other ∈ (cache.record entry bound).entries) :
    other = entry ∨ other ∈ cache.entries := by
  have grown : ∀ {cache : DispatchCache}, other ∈ (cache.grow entry bound).entries →
      other = entry ∨ other ∈ cache.entries := by
    intro cache member
    cases cache with
    | uninitialized => exact Or.inl (List.mem_singleton.mp member)
    | monomorphic first =>
        simp only [grow] at member
        split at member
        · cases member
        · exact (List.mem_cons.mp member).imp id id
    | polymorphic chain =>
        simp only [grow] at member
        split at member
        · exact (List.mem_cons.mp member).imp id id
        · cases member
    | megamorphic => cases member
  cases cache with
  | uninitialized => exact grown member
  | monomorphic first =>
      simp only [record] at member
      split at member
      · exact Or.inl (List.mem_singleton.mp member)
      · exact grown member
  | polymorphic chain =>
      simp only [record] at member
      split at member
      · exact (List.mem_cons.mp member).imp id List.mem_of_mem_eraseIdx
      · exact grown member
  | megamorphic => exact grown member

/-- A target that a cache answers with is that of an entry for the category and the version. -/
theorem exists_entry_of_target? {cache : DispatchCache} {guard : Guard} {version : UInt32}
    {target : MethodRef} (hit : cache.target? guard version = some target) :
    ∃ entry ∈ cache.entries, entry.guard = guard ∧ entry.version = version ∧
      entry.target = target := by
  obtain ⟨entry, found, same⟩ := Option.map_eq_some_iff.mp hit
  have matched := List.find?_some found
  simp only [Bool.and_eq_true, beq_iff_eq] at matched
  exact ⟨entry, List.mem_of_find?_eq_some found, matched.2, matched.1, same⟩

end DispatchCache

namespace Image

/-- An entry was made when there was a certain number of methods, no fewer than at the beginning.
If there are as many now, then what it says is right now. -/
def Dated (image : Image) (base : Nat) (entry : CacheEntry) (right : Prop) : Prop :=
  ∃ count, base ≤ count ∧ count ≤ image.methods.size ∧ entry.version = UInt32.ofNat count ∧
    (count = image.methods.size → right)

/-- Every entry of every inline cache is dated, and right as long as its date has not passed. -/
structure Attuned (image : Image) (base : Nat) : Prop where
  since : base ≤ image.methods.size
  version : image.sites.version = UInt32.ofNat image.methods.size
  rooted : image.Rooted
  sends : ∀ site selector, image.Sends site selector →
    ∀ entry ∈ (image.sites.calls.get site).entries,
      image.GuardKnown entry.guard ∧ image.Dated base entry
        (image.lookup (image.guardClass entry.guard) selector = some entry.target)
  supers : ∀ site origin selector, image.SendsSuper site origin selector →
    ∀ entry ∈ (image.sites.calls.get site).entries,
      image.Dated base entry (image.lookup origin selector = some entry.target)

/-- An entry with the current version was made with the current number of methods, as long as there
were not too many installations. -/
theorem Dated.right {image : Image} {base : Nat} {entry : CacheEntry} {right : Prop}
    (dated : image.Dated base entry right) (few : image.methods.size < base + UInt32.size)
    (version : image.sites.version = UInt32.ofNat image.methods.size)
    (current : entry.version = image.sites.version) : right := by
  obtain ⟨count, above, below, date, holds⟩ := dated
  apply holds
  have words : UInt32.ofNat count = UInt32.ofNat image.methods.size :=
    (date.symm.trans current).trans version
  have numbers := congrArg UInt32.toNat words
  simp only [UInt32.toNat_ofNat'] at numbers
  simp only [UInt32.size] at few
  omega

/-- Inline caches answer what a full lookup answers. -/
theorem Attuned.lookupAt {image : Image} {base : Nat} (attuned : image.Attuned base)
    (few : image.methods.size < base + UInt32.size) {site : CallSiteRef} {selector : Selector}
    (sends : image.Sends site selector) (receiver : Value) :
    (image.lookupAt site selector receiver).1 = image.lookupFor receiver selector := by
  rcases image.lookupAt_cases site selector receiver with
    ⟨target, hit, result⟩ | ⟨absent, result⟩ | ⟨target, journal, found, result⟩
  · obtain ⟨entry, member, guard, version, rfl⟩ := DispatchCache.exists_entry_of_target? hit
    obtain ⟨-, dated⟩ := attuned.sends site selector sends entry member
    have right := dated.right few attuned.version version
    rw [result, lookupFor, classOf_eq_guardClass, ← guard, right]
  · rw [result, absent]
  · rw [result, found]

/-- The caches of sends to super answer what a full lookup answers. -/
theorem Attuned.lookupSuperAt {image : Image} {base : Nat} (attuned : image.Attuned base)
    (few : image.methods.size < base + UInt32.size) {site : CallSiteRef} {origin : ClassRef}
    {selector : Selector} (sends : image.SendsSuper site origin selector) :
    (image.lookupSuperAt site origin selector).1 = image.lookup origin selector := by
  rcases image.lookupSuperAt_cases site origin selector with
    ⟨entry, cache, current, result⟩ | ⟨absent, result⟩ | ⟨target, found, result⟩
  · have dated := attuned.supers site origin selector sends entry (by
      rw [cache]
      exact List.mem_singleton_self entry)
    rw [result, dated.right few attuned.version current]
  · rw [result, absent]
  · rw [result, found]

/-- A site belongs to one send only. -/
theorem WellFormed.send_unique {image : Image} (formed : image.WellFormed) {site : CallSiteRef}
    {selector other : Selector} (sends : image.Sends site selector)
    (sendsToo : image.Sends site other) : selector = other := by
  rcases sends with outlined | ⟨control, message, outlined⟩ <;>
    rcases sendsToo with outlinedToo | ⟨controlToo, messageToo, outlinedToo⟩ <;>
    cases formed.callsApart _ _ site outlined outlinedToo rfl rfl <;> rfl

theorem WellFormed.not_sendsSuper {image : Image} (formed : image.WellFormed) {site : CallSiteRef}
    {selector other : Selector} {origin : ClassRef} (sends : image.Sends site selector) :
    ¬ image.SendsSuper site origin other := by
  intro sendsSuper
  rcases sends with outlined | ⟨control, message, outlined⟩ <;>
    cases formed.callsApart _ _ site outlined sendsSuper rfl rfl

theorem WellFormed.sendSuper_unique {image : Image} (formed : image.WellFormed)
    {site : CallSiteRef} {selector other : Selector} {origin otherOrigin : ClassRef}
    (sends : image.SendsSuper site origin selector)
    (sendsToo : image.SendsSuper site otherOrigin other) :
    origin = otherOrigin ∧ selector = other := by
  cases formed.callsApart _ _ site sends sendsToo rfl rfl
  exact ⟨rfl, rfl⟩

/-- Whether an entry says what the send at a site is answered with now. -/
def Answers (image : Image) (site : CallSiteRef) (entry : CacheEntry) : Prop :=
  (∃ selector, image.Sends site selector ∧ image.GuardKnown entry.guard ∧
      image.lookup (image.guardClass entry.guard) selector = some entry.target) ∨
    ∃ origin selector, image.SendsSuper site origin selector ∧
      image.lookup origin selector = some entry.target

/-- As long as no method is installed or removed, entries stay right.  New ones have to be right
when they are recorded. -/
theorem Attuned.carry {before after : Image} {base : Nat} (attuned : before.Attuned base)
    (formed : before.WellFormed) (registry : before.SameRegistry after) (rooted : after.Rooted)
    (methods : after.methods = before.methods)
    (version : after.sites.version = before.sites.version)
    (recorded : ∀ site, ∀ entry ∈ (after.sites.calls.get site).entries,
      entry ∈ (before.sites.calls.get site).entries ∨
        (entry.version = before.sites.version ∧ before.Answers site entry)) :
    after.Attuned base := by
  have nodes : ∀ node, after.Outlines node → before.Outlines node := by
    intro node outlined
    simpa only [Outlines, methodAt, methods] using outlined
  have dated : ∀ {entry : CacheEntry} {right now : Prop}, (right → now) →
      before.Dated base entry right → after.Dated base entry now := by
    rintro entry right now implies ⟨count, above, below, date, holds⟩
    refine ⟨count, above, methods ▸ below, date, fun current => implies (holds ?_)⟩
    rw [methods] at current
    exact current
  -- An entry just recorded carries the number of methods that there are.
  have fresh : ∀ {entry : CacheEntry} {right : Prop}, entry.version = before.sites.version →
      right → after.Dated base entry right := by
    intro entry right current holds
    refine ⟨before.methods.size, attuned.since, Nat.le_of_eq (congrArg Arena.size methods).symm,
      current.trans attuned.version, fun _ => holds⟩
  have lookups : ∀ {guard : Guard} {selector : Selector} {target : MethodRef},
      before.GuardKnown guard →
      before.lookup (before.guardClass guard) selector = some target →
        after.lookup (after.guardClass guard) selector = some target := by
    intro guard selector target known found
    rw [registry.guardClass known,
      registry.lookup formed attuned.rooted (has_guardClass formed known)]
    exact found
  have superLookups : ∀ {site : CallSiteRef} {origin : ClassRef} {selector : Selector}
      {target : MethodRef}, before.SendsSuper site origin selector →
      before.lookup origin selector = some target →
        after.lookup origin selector = some target := by
    intro site origin selector target sends found
    rw [registry.lookup formed attuned.rooted ((formed.placed _ sends).origin origin rfl)]
    exact found
  exact {
    since := methods ▸ attuned.since
    version := by rw [version, methods, attuned.version]
    rooted := rooted
    sends := by
      intro site selector sends entry member
      have sent : before.Sends site selector := by
        rcases sends with outlined | ⟨control, message, outlined⟩
        · exact Or.inl (nodes _ outlined)
        · exact Or.inr ⟨control, message, nodes _ outlined⟩
      rcases recorded site entry member with old | ⟨current, new⟩
      · obtain ⟨known, older⟩ := attuned.sends site selector sent entry old
        exact ⟨registry.guardKnown known, dated (lookups known) older⟩
      · rcases new with ⟨other, sentToo, known, found⟩ | ⟨origin, other, sentSuper, -⟩
        · cases formed.send_unique sent sentToo
          exact ⟨registry.guardKnown known, fresh current (lookups known found)⟩
        · exact absurd sentSuper (formed.not_sendsSuper sent)
    supers := by
      intro site origin selector sends entry member
      have sent : before.SendsSuper site origin selector := nodes _ sends
      rcases recorded site entry member with old | ⟨current, new⟩
      · exact dated (superLookups sent) (attuned.supers site origin selector sent entry old)
      · rcases new with ⟨other, sentToo, -, -⟩ | ⟨otherOrigin, other, sentToo, found⟩
        · exact absurd sent (formed.not_sendsSuper sentToo)
        · obtain ⟨rfl, rfl⟩ := formed.sendSuper_unique sent sentToo
          exact fresh current (superLookups sent found) }

/-- After the installation of a method every entry is out of date. -/
theorem Attuned.install {image : Image} {base : Nat} (attuned : image.Attuned base)
    (formed : image.WellFormed) {holder : ClassRef} {selector : Selector} {behavior : Behavior}
    (allowed : (Action.install holder selector behavior).Allowed image) :
    ((Action.install holder selector behavior).perform image).Attuned base := by
  have rooted := attuned.rooted.perform formed allowed
  have extended := Action.extends_perform allowed
  have outlined := fun {node} => @outlines_install image holder selector behavior node
  have fresh := allowed.2
  obtain ⟨journal, installed⟩ := image.addMethod_eq holder selector behavior
  simp only [Action.perform, installed] at rooted extended outlined ⊢
  have stale : ∀ {entry : CacheEntry} {right now : Prop}, image.Dated base entry right →
      ∃ count, base ≤ count ∧ count ≤ (image.methods.push { holder, selector, behavior }).size ∧
        entry.version = UInt32.ofNat count ∧
        (count = (image.methods.push { holder, selector, behavior }).size → now) := by
    rintro entry right now ⟨count, above, below, date, -⟩
    rw [Arena.size_push]
    exact ⟨count, above, by omega, date, fun current => by omega⟩
  exact {
    since := by
      rw [Arena.size_push]
      have since := attuned.since
      omega
    version := by
      rw [Arena.size_push, attuned.version]
      simp
    rooted := rooted
    sends := by
      intro site other sends entry member
      have sent : image.Sends site other ∨ image.sites.calls.get site = .uninitialized := by
        rcases sends with node | ⟨control, message, node⟩
        · rcases outlined node with old | new
          · exact Or.inl (Or.inl old)
          · exact Or.inr (fresh.callsUnused _ new site rfl).1
        · rcases outlined node with old | new
          · exact Or.inl (Or.inr ⟨control, message, old⟩)
          · exact Or.inr (fresh.callsUnused _ new site rfl).1
      rcases sent with sent | unused
      · obtain ⟨known, dated⟩ := attuned.sends site other sent entry member
        refine ⟨?_, stale dated⟩
        cases kind : entry.guard with
        | classObject ref =>
            rw [kind] at known
            exact Nat.lt_of_lt_of_le known extended.classes
        | object owner =>
            rw [kind] at known
            exact Nat.lt_of_lt_of_le known extended.classes
        | _ => trivial
      · simp only [unused] at member
        cases member
    supers := by
      intro site origin other sends entry member
      rcases outlined sends with old | new
      · exact stale (attuned.supers site origin other old entry member)
      · simp only [(fresh.callsUnused _ new site rfl).1] at member
        cases member }

/-- The versions of the dictionaries and what sites remember, after an action that installs
nothing: at most one entry is new, and it says what a full lookup has just found. -/
theorem recorded_perform {image : Image} {action : Action} (formed : image.WellFormed)
    (allowed : action.Allowed image) (unchanged : action.installs = false) :
    (action.perform image).sites.version = image.sites.version ∧
      ∀ site, ∀ entry ∈ ((action.perform image).sites.calls.get site).entries,
        entry ∈ (image.sites.calls.get site).entries ∨
          (entry.version = image.sites.version ∧ image.Answers site entry) := by
  have tended : ∀ {good : Value → Prop} {after : Image}, Tended good image after →
      after.sites.version = image.sites.version ∧
        ∀ site, ∀ entry ∈ (after.sites.calls.get site).entries,
          entry ∈ (image.sites.calls.get site).entries ∨
            (entry.version = image.sites.version ∧ image.Answers site entry) := by
    intro good after tended
    refine ⟨tended.version, fun site entry member => Or.inl ?_⟩
    rw [tended.calls] at member
    exact member
  cases action with
  | install holder selector behavior => cases unchanged
  | readField receiver index => exact tended (Action.readField_tended image receiver index)
  | writeField receiver index value =>
      exact tended (Action.writeField_tended allowed.2 receiver index)
  | readFieldAt site receiver index =>
      exact tended (Action.readFieldAt_tended image site receiver index)
  | writeFieldAt site receiver index value =>
      exact tended (Action.writeFieldAt_tended allowed.2.1 site receiver index)
  | resolve site selector receiver =>
      simp only [Action.perform]
      rcases image.lookupAt_cases site selector receiver with
        ⟨target, -, result⟩ | ⟨-, result⟩ | ⟨target, journal, found, result⟩
      · rw [result]
        exact ⟨rfl, fun _ _ member => Or.inl member⟩
      · rw [result]
        exact ⟨rfl, fun _ _ member => Or.inl member⟩
      · rw [result]
        refine ⟨rfl, fun other entry member => ?_⟩
        simp only [setCallSite, Arena.get_set] at member
        split at member
        · next same =>
            rw [same.1]
            rcases DispatchCache.mem_record member with rfl | old
            · refine Or.inr ⟨rfl, Or.inl ⟨selector, allowed.2,
                guardKnown_guardOf formed allowed.1, ?_⟩⟩
              rw [← classOf_eq_guardClass]
              exact found
            · exact Or.inl old
        · exact Or.inl member
  | resolveSuper site origin selector =>
      simp only [Action.perform]
      rcases image.lookupSuperAt_cases site origin selector with
        ⟨entry, -, -, result⟩ | ⟨-, result⟩ | ⟨target, found, result⟩
      · rw [result]
        exact ⟨rfl, fun _ _ member => Or.inl member⟩
      · rw [result]
        exact ⟨rfl, fun _ _ member => Or.inl member⟩
      · rw [result]
        refine ⟨rfl, fun other entry member => ?_⟩
        simp only [setCallSite, Arena.get_set] at member
        split at member
        · next same =>
            rw [same.1]
            cases List.mem_singleton.mp member
            exact Or.inr ⟨rfl, Or.inr ⟨origin, selector, allowed, found⟩⟩
        · exact Or.inl member
  | allocate sites =>
      refine ⟨allowed.version, fun site entry member => Or.inl ?_⟩
      rw [← allowed.calls]
      exact member
  | _ => exact ⟨rfl, fun _ _ member => Or.inl member⟩

/-- Every allowed action keeps inline caches right, unless it takes a method out of a dictionary. -/
theorem Attuned.perform {image : Image} {base : Nat} {action : Action}
    (attuned : image.Attuned base) (formed : image.WellFormed) (allowed : action.Allowed image)
    (kept : action.removes = false) : (action.perform image).Attuned base := by
  cases installs : action.installs with
  | true =>
      cases action with
      | install holder selector behavior => exact attuned.install formed allowed
      | _ => cases installs
  | false =>
      obtain ⟨version, recorded⟩ := recorded_perform formed allowed installs
      exact attuned.carry formed (Action.sameRegistry_perform allowed kept installs)
        (attuned.rooted.perform formed allowed) (Action.methods_of_not_installs image installs)
        version recorded

/-- No send site remembers anything. -/
def Forgetful (image : Image) : Prop :=
  ∀ site, image.sites.calls.get site = .uninitialized

/-- Where no site remembers anything, counting can start with the methods that there are. -/
theorem Attuned.restart {image : Image} {base : Nat} (attuned : image.Attuned base)
    (forgetful : image.Forgetful) : image.Attuned image.methods.size where
  since := Nat.le_refl _
  version := attuned.version
  rooted := attuned.rooted
  sends := fun site _ _ entry member => by
    rw [forgetful site] at member
    cases member
  supers := fun site _ _ _ entry member => by
    rw [forgetful site] at member
    cases member

theorem attuned_founded (platform : Platform) (settings : Settings) (listening : Bool) :
    (founded platform settings listening).Attuned 0 ∧
      (founded platform settings listening).Forgetful := by
  have vacant := vacant_founded
  have forgetful : (founded platform settings listening).Forgetful := fun site => by
    rw [founded_eq]
    exact Arena.get_of_size_eq_zero vacant.calls site
  have version : (founded platform settings listening).sites.version =
      UInt32.ofNat (founded platform settings listening).methods.size := by
    rw [founded_eq]
    change (founded .plain .standard false).sites.version =
      UInt32.ofNat (founded .plain .standard false).methods.size
    rw [vacant.version, vacant.methods]
    rfl
  exact ⟨{
    since := Nat.zero_le _
    version := version
    rooted := rooted_founded platform settings listening
    sends := fun site _ _ entry member => by
      rw [forgetful site] at member
      cases member
    supers := fun site _ _ _ entry member => by
      rw [forgetful site] at member
      cases member }, forgetful⟩

theorem attuned_initial (platform : Platform) (settings : Settings) (listening : Bool) :
    (initial platform settings listening).Attuned
      (initial platform settings listening).methods.size := by
  have keeps : Keeps fun image => image.Attuned 0 ∧ image.Forgetful := by
    intro image action founding allowed formed ⟨attuned, forgetful⟩
    have kept : action.removes = false := by
      cases action with
      | remove holder selector => cases founding
      | _ => rfl
    refine ⟨attuned.perform formed allowed kept, ?_⟩
    cases action with
    | noteDown journal => exact forgetful
    | bind name value => exact forgetful
    | install holder selector behavior =>
        obtain ⟨journal, installed⟩ := image.addMethod_eq holder selector behavior
        simp only [Action.perform, installed]
        exact forgetful
    | _ => cases founding
  obtain ⟨-, attuned, forgetful⟩ :=
    initial_induction platform settings listening (attuned_founded platform settings listening)
      keeps
  exact attuned.restart forgetful

/-- The number of installations in a sequence of actions. -/
def installations (actions : List Action) : Nat :=
  actions.countP Action.installs

/-- Methods are what was installed. -/
theorem Reaches.size_methods {start image : Image} {actions : List Action}
    (history : start.Reaches actions image) :
    image.methods.size = start.methods.size + installations actions := by
  induction history with
  | start => rfl
  | act action _ allowed inductionHypothesis =>
      have counted : ∀ earlier : List Action, installations (earlier ++ [action]) =
          installations earlier + if action.installs then 1 else 0 := by
        intro earlier
        simp [installations, List.countP_append, List.countP_cons]
      rw [counted, ← Nat.add_assoc, ← inductionHypothesis]
      cases installs : action.installs with
      | true =>
          cases action with
          | install holder selector behavior =>
              obtain ⟨journal, installed⟩ := Image.addMethod_eq _ holder selector behavior
              rw [Action.perform, installed, Arena.size_push]
              rfl
          | _ => cases installs
      | false => rw [Action.methods_of_not_installs _ installs]; rfl

theorem Reaches.attuned {platform : Platform} {settings : Settings} {listening : Bool}
    {actions : List Action} {image : Image}
    (history : (initial platform settings listening).Reaches actions image)
    (kept : ∀ action ∈ actions, action.removes = false) :
    image.Attuned (initial platform settings listening).methods.size := by
  induction history with
  | start => exact attuned_initial platform settings listening
  | act action earlier allowed inductionHypothesis =>
      have attuned := inductionHypothesis fun other member =>
        kept other (List.mem_append_left _ member)
      exact attuned.perform (earlier.wellFormed (wellFormed_initial platform settings listening))
        allowed (kept action (List.mem_append_right _ (List.mem_singleton_self action)))

end Image

/-- In every image that a machine reaches without taking methods out of dictionaries, and with fewer
installations than there are words, a send at a site is answered with what a full lookup finds in
the dictionaries of that moment.  It makes no difference what the site remembers or was asked
before. -/
theorem inline_caches_sound {platform : Platform} {settings : Settings} {listening : Bool}
    {actions : List Action} {image : Image}
    (history : (Image.initial platform settings listening).Reaches actions image)
    (kept : ∀ action ∈ actions, action.removes = false)
    (few : Image.installations actions < UInt32.size) :
    (∀ site selector, image.Sends site selector → ∀ receiver,
        (image.lookupAt site selector receiver).1 =
          image.lookup (image.classOf receiver) selector) ∧
      ∀ site origin selector, image.SendsSuper site origin selector →
        (image.lookupSuperAt site origin selector).1 = image.lookup origin selector := by
  have attuned := history.attuned kept
  have bound : image.methods.size <
      (Image.initial platform settings listening).methods.size + UInt32.size := by
    rw [history.size_methods]
    omega
  exact ⟨fun site selector sends receiver => attuned.lookupAt bound sends receiver,
    fun site origin selector sends => attuned.lookupSuperAt bound sends⟩

deriving instance DecidableEq for OutlineNode

/-- A session in which a send site remembers an inherited method, which is then overridden. -/
def overridingSession : List Request :=
  let answering := fun number => Source.MethodBody.expressions 0
    [.answer (.literal (.integer number)) .absent]
  [.defineClass {
      name := "Walker"
      superclass := none
      fields := []
      methods := [
        { selector := "walk", parameters := 0, body := .expressions 0 [.send .self "step" []] },
        { selector := "step", parameters := 0, body := answering 1 }]
      classFields := []
      classMethods := [] },
    .defineClass {
      name := "Runner"
      superclass := some "Walker"
      fields := []
      methods := []
      classFields := []
      classMethods := [] },
    .instantiate ⟨39⟩,
    .send "walk" (.object ⟨0⟩) [],
    .installMethod ⟨39⟩ { selector := "step", parameters := 0, body := answering 2 }]

/-- The image after that session. -/
def overridingImage : Image :=
  (Request.serveAll (.ofBudget 4) overridingSession (.initial .plain .standard false)).2

/-- After the session the site still holds the inherited method, but answers with the one that
overrides it. -/
theorem inline_caches_sound_overridden :
    (overridingImage.sites.calls.get ⟨0⟩).entries.map CacheEntry.target = [⟨87⟩] ∧
      overridingImage.Sends ⟨0⟩ "step" ∧
      (overridingImage.lookupAt ⟨0⟩ "step" (.object ⟨0⟩)).1 =
        overridingImage.lookup (overridingImage.classOf (.object ⟨0⟩)) "step" ∧
      overridingImage.lookup (overridingImage.classOf (.object ⟨0⟩)) "step" = some ⟨88⟩ := by
  have admissible : Request.Throughout (.ofBudget 4) (fun image request =>
      request.Admissible image ∧ (request.removes = true → False)) overridingSession
      (.initial .plain .standard false) := by decide +kernel
  have sends : overridingImage.Sends ⟨0⟩ "step" := Or.inl ⟨⟨86⟩, by decide +kernel⟩
  obtain ⟨actions, history, kept⟩ := Request.serveAll_reaches
    (Image.wellFormed_initial .plain .standard false) 4 overridingSession admissible .start
    (List.forall_mem_nil _)
  have few : Image.installations actions < UInt32.size := by
    have count := history.size_methods
    have total : overridingImage.methods.size =
        (Image.initial .plain .standard false).methods.size + 3 := by decide +kernel
    simp only [overridingImage] at total
    simp only [UInt32.size]
    omega
  refine ⟨by decide +kernel, sends, ?_, by decide +kernel⟩
  exact (inline_caches_sound history (fun action member => Bool.eq_false_iff.mpr
    (kept action member)) few).1 ⟨0⟩ "step" sends (.object ⟨0⟩)

end MessageMachine
