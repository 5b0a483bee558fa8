import MessageMachine.Machine.Eval

/-!
# Sending messages

A message is answered by the method that the lookup finds for the class of the receiver, and a
receiver without such a method is told that it does not understand.  A send in prepared code goes by
way of its site, which remembers what earlier lookups found.
-/

namespace MessageMachine

namespace Image

/-- Remember in a send site. -/
def setCallSite (image : Image) (site : CallSiteRef) (cache : DispatchCache) : Image :=
  { image with sites := { image.sites with calls := image.sites.calls.set site cache } }

/-- The target of a send at a site: the one that the site remembers, or else the one found by a
full lookup, which the site then remembers. -/
def lookupAt (image : Image) (site : CallSiteRef) (selector : Selector) (receiver : Value) :
    Option MethodRef × Image :=
  let cache := image.sites.calls.get site
  let guard := image.guardOf receiver
  let version := image.sites.version
  match cache.target? guard version with
  | some target => (some target, image)
  | none =>
      match image.lookupFor receiver selector with
      | none => (none, image)
      | some target =>
          let recorded := cache.record { guard, target, version } image.settings.cacheSize
          let image := image.setCallSite site recorded
          let image := image.note fun _ =>
            if cache.state = recorded.state then
              .cacheFilled selector site recorded.entries.length
            else .cacheMoved selector site cache.state recorded.state guard
          (some target, image)

/-- The target of a send to super at a site.  The lookup always starts at the same class, so that
one target is all that needs to be remembered. -/
def lookupSuperAt (image : Image) (site : CallSiteRef) (origin : ClassRef) (selector : Selector) :
    Option MethodRef × Image :=
  let version := image.sites.version
  let remembered := match image.sites.calls.get site with
    | .monomorphic entry => if entry.version = version then some entry.target else none
    | _ => none
  match remembered with
  | some target => (some target, image)
  | none =>
      match image.lookup origin selector with
      | none => (none, image)
      | some target =>
          (some target,
            image.setCallSite site (.monomorphic { guard := .classObject origin, target, version }))

end Image

namespace Machine

/-- The selector that reports messages which are not understood. -/
def misunderstanding : Selector :=
  "doesNotUnderstand:arguments:"

/-- The selector that reports global names which are not bound. -/
def unknownGlobal : Selector :=
  "unknownGlobal:"

/-- Tell a receiver that it does not understand a message. -/
def notUnderstood (machine : Machine) (receiver : Value) (selector : Selector)
    (operands : List Value) : Eval Value := do
  Eval.meet misunderstanding
  let image ← get
  match image.lookupFor receiver misunderstanding with
  | none =>
      Eval.fail (.lookupFailure (image.className (image.classOf receiver)) misunderstanding)
  | some method =>
      Eval.note fun image => .notUnderstood (image.text? receiver) selector
      let operands ← Eval.makeArray operands.toArray
      machine.activate (.method method [receiver, .symbol selector, operands])

/-- Tell the first of some arguments that it does not understand a message. -/
def notUnderstoodBy (machine : Machine) (selector : Selector) : List Value → Eval Value
  | [] => Eval.fail (.internal .sendWithoutReceiver)
  | receiver :: operands => machine.notUnderstood receiver selector operands

/-- Invoke the method found for a message, if any. -/
def dispatch (machine : Machine) (found : Option MethodRef) (selector : Selector)
    (arguments : List Value) : Eval Value :=
  match found with
  | some method => machine.activate (.method method arguments)
  | none => machine.notUnderstoodBy selector arguments

/-- Send a message to the first of some arguments, with a full lookup. -/
def send (machine : Machine) (selector : Selector) (arguments : List Value) : Eval Value := do
  match arguments with
  | [] => Eval.fail (.internal .sendWithoutReceiver)
  | receiver :: _ =>
      let found := (← get).lookupFor receiver selector
      machine.dispatch found selector arguments

/-- Report an unbound global name to the receiver, if it wants to know. -/
def reportGlobal (machine : Machine) (receiver : Value) (name : String) : Eval Value := do
  Eval.meet unknownGlobal
  match (← get).lookupFor receiver unknownGlobal with
  | some method => machine.activate (.method method [receiver, .symbol name])
  | none => Eval.fail (.unknownGlobal name)

/-- Send a message at a site. -/
def sendAt (machine : Machine) (site : CallSiteRef) (selector : Selector) (receiver : Value)
    (operands : List Value) : Eval Value := do
  let found ← modifyGet fun image => image.lookupAt site selector receiver
  machine.dispatch found selector (receiver :: operands)

/-- Send a message to super at a site. -/
def sendSuperAt (machine : Machine) (site : CallSiteRef) (origin : ClassRef)
    (selector : Selector) (receiver : Value) (operands : List Value) : Eval Value := do
  let found ← modifyGet fun image => image.lookupSuperAt site origin selector
  machine.dispatch found selector (receiver :: operands)

end Machine

end MessageMachine
