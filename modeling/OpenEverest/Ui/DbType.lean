import OpenEverest.Api.DatabaseCluster

/-!
# Kinds of databases in the UI

The engine of a cluster object and the database the UI names it by.
-/

namespace OpenEverest.Ui

open Framework Api

inductive DbEngineType where
  | psmdb
  | pxc
  | postgresql
  deriving DecidableEq

namespace DbEngineType

def name : DbEngineType → GoString
  | psmdb => databaseEnginePSMDB
  | pxc => databaseEnginePXC
  | postgresql => databaseEnginePostgresql

theorem name_eq_psmdb (dbType : DbEngineType) : dbType.name = databaseEnginePSMDB ↔ dbType = psmdb := by
  cases dbType <;> decide

end DbEngineType

inductive DbType where
  | mongo
  | mysql
  | postresql
  deriving DecidableEq

def dbEngineToDbType : DbEngineType → DbType
  | .psmdb => .mongo
  | .pxc => .mysql
  | .postgresql => .postresql

def dbTypeToDbEngine : DbType → DbEngineType
  | .mongo => .psmdb
  | .mysql => .pxc
  | .postresql => .postgresql

def dbTypeToProxyType : DbType → GoString
  | .mongo => ascii "mongos"
  | .mysql => ascii "haproxy"
  | .postresql => ascii "pgbouncer"

end OpenEverest.Ui
