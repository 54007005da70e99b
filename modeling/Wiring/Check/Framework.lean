import Wiring.Service

/-!
# Services of the host

Services that the host registers by itself and that need no registration. They go by their simple
names, whatever their namespaces and type arguments.
-/

namespace Wiring

/-- The services that count as registered by the host. -/
structure FrameworkServices where
  enabled : Bool
  /-- Simple names beside the built-in ones. -/
  extra : List String
deriving DecidableEq, Repr, Inhabited

namespace FrameworkServices

/-- The simple names of the services that every host provides. -/
def builtIn : List String :=
  ["IServiceProvider", "IServiceScopeFactory", "IServiceProviderIsService", "ILogger",
    "ILoggerFactory", "IConfiguration", "IOptions", "IOptionsSnapshot", "IOptionsMonitor",
    "IHostEnvironment", "IWebHostEnvironment", "IHostApplicationLifetime", "IHttpContextAccessor",
    "IHttpClientFactory", "IMemoryCache", "TimeProvider"]

/-- The built-in services and those of the given names, which may be qualified. -/
def of (enabled : Bool) (extra : List String) : FrameworkServices :=
  ⟨enabled, extra.map TypeRef.lastSegment⟩

/-- No service at all. -/
def disabled : FrameworkServices :=
  ⟨false, []⟩

/-- Whether the host provides the service. -/
def contains (f : FrameworkServices) (s : ServiceIdentity) : Bool :=
  f.enabled && (builtIn.contains s.ty.simpleName || f.extra.contains s.ty.simpleName)

end FrameworkServices

end Wiring
