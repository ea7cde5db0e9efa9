import FieldDiscovery.Lib.Str

/-!
# Exceptions

The exceptions the modelled functions raise or let through, under their Python classes. A message
is kept where the code reads it or builds it from its input.
-/

namespace FieldDiscovery

open Py

/-- A Python exception. -/
inductive Exc where
  /-- `NormalizationError`, a `ValueError` of the correlation layer. -/
  | normalization (message : Str)
  /-- `UnicodeEncodeError`, a `ValueError`: a lone surrogate has no UTF-8 form. -/
  | unicodeEncode
  /-- `json.JSONDecodeError`, a `ValueError`. -/
  | jsonDecode
  /-- Any other plain `ValueError`. -/
  | value
  /-- `OverflowError`, an `ArithmeticError`. -/
  | overflow
  /-- `LookupError`, such as an unknown codec. -/
  | lookup
  /-- `PermissionError`, an `OSError`. -/
  | permission
  /-- Any other `OSError`. -/
  | os
  /-- `NmapXmlError`, a `ValueError` of the XML parser. -/
  | nmapXml (message : Str)
  /-- `NmapImportError`, a `RuntimeError`. -/
  | nmapImport (message : Str)
  /-- `RepositoryError`, a `RuntimeError`. -/
  | repository (message : Str)
  /-- `sqlite3.Error`. -/
  | sqlite
  /-- `TypeError`, as `None[0]` raises it. -/
  | type
  /-- `ET.ParseError`, a `SyntaxError`. -/
  | xmlParse (detail : Str)
  /-- `AssertionError`. -/
  | assertion
  /-- `ReportError`, a `RuntimeError`. -/
  | report (message : Str)
  /-- `UnsafeArtifactPath`, a `ValueError` of the artifact store. -/
  | unsafeArtifactPath (message : Str)
  /-- `KeyError`, as a `dict` raises it. -/
  | key
  /-- `TopologyError`, a `ValueError`. -/
  | topology (message : Str)
  /-- `PassiveParseError`, a `ValueError`. -/
  | passiveParse (message : Str)
  /-- `PassivePipelineError`, a `RuntimeError`. -/
  | passivePipeline (message : Str)
  /-- `MigrationError`, a `RuntimeError`. -/
  | migration (message : Str)
  /-- `TargetApprovalError`, a `CollectorError`. -/
  | targetApproval (message : Str)
  /-- `UnknownCollectorError`, a `CollectorError`. -/
  | unknownCollector (message : Str)
  /-- `ArtifactError`, a `ValueError` of the artifact store. -/
  | artifact (message : Str)
  /-- `ArtifactTooLarge`, an `ArtifactError`. -/
  | artifactTooLarge (message : Str)
  /-- `CollectorError`, a `RuntimeError`. -/
  | collector (message : Str)
  /-- `CollectorAuthenticationError`, a `CollectorError`. -/
  | collectorAuthentication (message : Str)
  /-- `RetryableCollectorError`, a `CollectorError`. -/
  | retryableCollector (message : Str)
  /-- `ADCollectionError`, a `CollectorError`. -/
  | adCollection (message : Str)
  /-- `ADAuthorizationError`, an `ADCollectionError`. -/
  | adAuthorization (message : Str)
  /-- `ADDetectionError`, a `RuntimeError`. -/
  | adDetection (message : Str)
  /-- `ADDetectionUnreachable`, an `ADDetectionError`. -/
  | adDetectionUnreachable (message : Str)
  /-- `ConfigurationError`, a `ValueError`. -/
  | configuration (message : Str)
  /-- `asyncio.CancelledError`, which is no `Exception`. -/
  | cancelled
  /-- `AttributeError`, as a method that the value does not have raises it. -/
  | attribute
  /-- `RecursionError`, a `RuntimeError`. -/
  | recursion
  /-- `StopIteration`, as `next` raises it. -/
  | stopIteration
  /-- `FileNotFoundError`, an `OSError`. -/
  | fileNotFound
  /-- `FileExistsError`, an `OSError`. -/
  | fileExists
  /-- `ScanLaunchError`, a `RuntimeError`. -/
  | scanLaunch (message : Str)
  /-- `SubnetResolutionError`, a `RuntimeError`. -/
  | subnetResolution (message : Str)
  /-- `struct.error`. -/
  | struct
  /-- `UniFiError`, a `CollectorError`. -/
  | unifi (message : Str)
  /-- `SnmpProtocolError`, a `CollectorError`. -/
  | snmpProtocol (message : Str)
  deriving DecidableEq

end FieldDiscovery
