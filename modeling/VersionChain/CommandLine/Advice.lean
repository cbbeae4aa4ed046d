/-!
# Advice

The words for errors of the command line that come with a hint about what to do.
-/

namespace VersionChain.Advice

/-- The configuration file that is read when none is named. -/
def defaultConfiguration : String := ".dynamic-resolve.yaml"

/-- The environment variable that names the cache root. -/
def cacheVariable : String := "DYNAMIC_RESOLVE_CACHE"

/-- There is no configuration file at a path. -/
def configurationNotFound (path : String) : String :=
  "Configuration file not found: " ++ path ++ "\n\nhint: Create a " ++ defaultConfiguration ++
    " file listing your repositories\nhint: Use -c/--config to specify a different path"

/-- A coordinate does not have the expected form. -/
def invalidCoordinate (coordinate expected : String) : String :=
  "Invalid coordinate: " ++ coordinate ++ "\n\nhint: Expected '" ++ expected ++
    "', e.g. 'org.example:lib:1.+'\nhint: Quote range selectors in your shell, e.g. 'org.example:lib:[1.0,2.0)'"

/-- No version was found, for the reasons given. -/
def versionNotFound (details : String) : String :=
  details ++ "\n\nhint: Run 'dynamic-resolve versions <group:name>' to see what each repository lists" ++
    "\nhint: Populate the cache or set " ++ cacheVariable ++ " to another cache root"

end VersionChain.Advice
