/-!
# Flags

The five switches of a proxy configuration.
-/

namespace Aspects

/-- The switches of a proxy configuration. -/
structure Flags where
  /-- Proxy the class of the target instead of its interfaces. -/
  proxyTargetClass : Bool := false
  /-- Prefer a proxy that extends the class of the target. -/
  optimize : Bool := false
  /-- The proxy keeps its configuration to itself. -/
  concealed : Bool := false
  /-- Calls in progress can find the proxy they go through. -/
  exposeProxy : Bool := false
  /-- The structure of the configuration does not change any more. -/
  frozen : Bool := false
  deriving DecidableEq, Inhabited

namespace Flags

/-- The flags as they are shown. -/
def display (f : Flags) : String :=
  "proxy_target_class=" ++ toString f.proxyTargetClass ++
    "; optimize=" ++ toString f.optimize ++
    "; opaque=" ++ toString f.concealed ++
    "; expose_proxy=" ++ toString f.exposeProxy ++
    "; frozen=" ++ toString f.frozen

/-- The flags as they are shown for inspection. -/
def inspect (f : Flags) : String :=
  "ProxyConfig \x7b proxy_target_class: " ++ toString f.proxyTargetClass ++
    ", optimize: " ++ toString f.optimize ++
    ", opaque: " ++ toString f.concealed ++
    ", expose_proxy: " ++ toString f.exposeProxy ++
    ", frozen: " ++ toString f.frozen ++ " \x7d"

end Flags

end Aspects
