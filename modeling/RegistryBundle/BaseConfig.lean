import RegistryBundle.Value.Basic

/-!
# The base of a configuration bundle

The keys that every bundle holds because the registry has no defaults for them.
-/

namespace RegistryBundle

/-- The entries of every bundle that the user does not set. -/
def baseConfig : Entries :=
  [("FEATURE_MAILING", .bool false),
    ("REGISTRY_TITLE", .str "Quay"),
    ("REGISTRY_TITLE_SHORT", .str "Quay"),
    ("AUTHENTICATION_TYPE", .str "Database"),
    ("ENTERPRISE_LOGO_URL", .str "/static/img/quay-horizontal-color.svg"),
    ("DEFAULT_TAG_EXPIRATION", .str "2w"),
    ("ALLOW_PULLS_WITHOUT_STRICT_LOGGING", .bool false),
    ("TAG_EXPIRATION_OPTIONS", .list [.str "2w"]),
    ("TEAM_RESYNC_STALE_TIME", .str "60m"),
    ("FEATURE_DIRECT_LOGIN", .bool true),
    ("FEATURE_BUILD_SUPPORT", Value.bool false)].map fun e => (.str e.1, e.2)

end RegistryBundle
