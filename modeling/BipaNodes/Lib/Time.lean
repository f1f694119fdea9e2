/-! Mathematical time in nanoseconds, the resolution of `Duration`. -/

set_option autoImplicit false

abbrev Nanos := Nat

namespace Nanos

def seconds (count : Nat) : Nanos := count * 1000000000

def millis (count : Nat) : Nanos := count * 1000000

end Nanos
