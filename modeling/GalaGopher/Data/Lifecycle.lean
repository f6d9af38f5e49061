namespace GalaGopher.Data

inductive Use (Handle : Type) where
  | allocate
  | touch
  | free
  | ask
  | opens (handle : Handle)
  | closes (handle : Handle)

structure Resources (Handle : Type) where
  allocated : Bool := false
  opened : List Handle := []

namespace Use

variable {Handle : Type} [DecidableEq Handle]

/-- The buffer is there whenever it is used, it is freed at most once for each
time it is allocated, and every handle is closed before the next is asked for. -/
def Allowed (resources : Resources Handle) : Use Handle → Prop
  | allocate => resources.allocated = false
  | touch => resources.allocated = true
  | free => resources.allocated = true
  | ask => resources.opened = []
  | opens handle => handle ∉ resources.opened
  | closes handle => handle ∈ resources.opened

def after (resources : Resources Handle) : Use Handle → Resources Handle
  | allocate => { resources with allocated := true }
  | free => { resources with allocated := false }
  | opens handle => { resources with opened := handle :: resources.opened }
  | closes handle => { resources with opened := resources.opened.erase handle }
  | _ => resources

end Use

variable {Handle : Type} [DecidableEq Handle]

/-- Every use is allowed after the ones before it. -/
def Disciplined (resources : Resources Handle) : List (Use Handle) → Prop
  | [] => True
  | use :: rest => use.Allowed resources ∧ Disciplined (use.after resources) rest

end GalaGopher.Data
