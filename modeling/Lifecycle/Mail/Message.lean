import Lifecycle.Mail.Template
import Lifecycle.Store.Fault
import Lifecycle.Text.Blank

/-!
Messages by mail: templates by name, messages, and what can go wrong before one is delivered.
-/

namespace Lifecycle.Mail

/-- A template as it is kept. -/
structure Source where
  subject : String
  body : String
deriving DecidableEq, Repr

/-- A template filled in. -/
structure Rendered where
  subject : String
  content : String
deriving DecidableEq, Repr

structure Message where
  recipient : String
  subject : String
  content : String
deriving DecidableEq, Repr

/-- Why there is no rendered template. -/
inductive TemplateFault where
  | notFound (id : String)
  | render (f : Template.Fault)
  | store (f : Store.Fault)
deriving DecidableEq, Repr

def TemplateFault.message : TemplateFault → String
  | .notFound id => "template '" ++ id ++ "' not found"
  | .render f => "could not render template: " ++ f.message
  | .store f => "could not render template: " ++ f.message

/-- A template filled in, the subject first. -/
def Source.render (s : Source) (context : Json) : Except TemplateFault Rendered := do
  let subject ← (Template.render s.subject context).mapError .render
  let content ← (Template.render s.body context).mapError .render
  return ⟨subject, content⟩

/-- Why a message is not delivered. -/
structure DeliveryFault where
  message : String
deriving DecidableEq, Repr

/-- The mailer that delivers nowhere takes every recipient but a blank one. -/
def checkRecipient (recipient : String) : Except DeliveryFault Unit :=
  if Text.isBlank recipient then .error ⟨"empty recipient"⟩ else .ok ()

end Lifecycle.Mail
