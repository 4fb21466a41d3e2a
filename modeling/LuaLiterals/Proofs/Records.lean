import LuaLiterals.Json.Form

/-!
How forms read records and choices. A record is read field by field (`Json.readFields`), and its
value put together from what the fields hold; a choice by the name of the alternative, from what
that is applied to. Each form is brought into this shape once, so that what is known of fields and
alternatives holds for all forms. A literal, a setting or a place is put together only where every
field is there and has been read (`Json.Complete`).
-/

set_option autoImplicit false
set_option relaxedAutoImplicit false

namespace LuaLiterals

namespace Json

variable {α : Type}

namespace Form

/-! ### Literals -/

end Form

end Json

end LuaLiterals
