import TraceArchive.Settings

/-!
# Connections to backends

How a client of each kind of backend is set up.  A host that starts with `https://` is reached
over an encrypted connection, whose certificates are verified when there is a file to verify them
with.
-/

set_option autoImplicit false

namespace TraceArchive

/-- What a client is to be connected to. -/
structure Connection where
  engine : Engine
  account : Account
  caCertPath : Option String
  deriving DecidableEq, Repr

namespace Connection

/-- The connection that settings ask for. -/
def ofSettings (settings : Settings) : Connection :=
  ⟨settings.engine, settings.account, settings.caCertPath⟩

/-- The host is reached over an encrypted connection. -/
def isEncrypted (connection : Connection) : Bool :=
  "https://".toList.isPrefixOf connection.account.host.toList

/-- The file to verify certificates with, if any. -/
def certificates? (connection : Connection) : Option String :=
  connection.caCertPath.filter (· ≠ "")

/-- The member for the file to verify certificates with. -/
def certificateMember (connection : Connection) : Members :=
  match connection.certificates? with
  | some path => [("ca_certs", .str path)]
  | none => []

/-- The user name and the password. -/
def credentials (connection : Connection) : Json :=
  .texts [connection.account.username, connection.account.password]

/-- The options of an Elasticsearch client; a host without a scheme is reached over plain HTTP. -/
def elasticOptions (connection : Connection) : Members :=
  let host := connection.account.host
  if connection.isEncrypted then
    [("hosts", .texts [host]), ("basic_auth", connection.credentials),
      ("verify_certs", .bool connection.certificates?.isSome), ("ssl_show_warn", .bool false),
      ("request_timeout", .int 30)] ++ connection.certificateMember
  else
    let address := if "http://".toList.isPrefixOf host.toList then host else "http://" ++ host
    [("hosts", .texts [address]), ("basic_auth", connection.credentials)]

/-- The options of an OpenSearch client. -/
def openSearchOptions (connection : Connection) : Members :=
  let encrypted := connection.isEncrypted
  [("hosts", .texts [connection.account.host]), ("http_auth", connection.credentials),
    ("use_ssl", .bool encrypted),
    ("verify_certs", .bool (encrypted && connection.certificates?.isSome)),
    ("ssl_show_warn", .bool false), ("timeout", .int 30)] ++
    (if encrypted then connection.certificateMember else [])

/-- The options of a client. -/
def options (connection : Connection) : Members :=
  match connection.engine with
  | .elasticsearch => connection.elasticOptions
  | .opensearch => connection.openSearchOptions

/-- The key of the shared client for a host, a user and a kind of backend. -/
def keyOf (host username engine : String) : String :=
  engine ++ ":" ++ host ++ ":" ++ username

/-- The key of the shared client for a connection. -/
def key (connection : Connection) : String :=
  keyOf connection.account.host connection.account.username connection.engine.name

end Connection
end TraceArchive
