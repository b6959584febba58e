import Mathlib.Data.List.Defs
import Mathlib.Data.UInt

/-! # Byte strings and the error type (`error.rs`)

A Rust `String` is the list of its UTF-8 bytes.  `DnsProxyError` has the variants of the
source; each carries the texts the code puts into it, and `display` is its `Display` text. -/

namespace DnsIngress

abbrev Bytes := List UInt8

/-- The bytes of a string literal. -/
def utf8 (s : String) : Bytes := s.toUTF8.data.toList

/-- `x.to_string()` of an unsigned integer. -/
def decimal (n : ℕ) : Bytes := utf8 n.repr

inductive SniRewriteError
  | noMatchingBaseDomain (hostname : Bytes)
deriving DecidableEq

inductive CertificateError
  | loadFailed (path reason : Bytes)
  | notConfigured (domain : Bytes)
  | invalidFormat (reason : Bytes)
  | privateKey (reason : Bytes)
deriving DecidableEq

inductive UpstreamError
  | connectionFailed (upstream reason : Bytes)
  | requestFailed (upstream reason : Bytes)
deriving DecidableEq

inductive DnsProxyError
  | sniRewrite (e : SniRewriteError)
  | tls (message : Bytes)
  | certificate (e : CertificateError)
  | upstream (e : UpstreamError)
  /-- the peer made no progress before the deadline -/
  | timeout (upstream : Bytes)
  | overloaded (upstream protocol : Bytes)
  | io (message : Bytes)
  | protocol (message : Bytes)
  | invalidInput (message : Bytes)
deriving DecidableEq

def SniRewriteError.display : SniRewriteError → Bytes
  | noMatchingBaseDomain hostname =>
      utf8 "No matching base domain found for hostname: " ++ hostname

def CertificateError.display : CertificateError → Bytes
  | loadFailed path reason =>
      utf8 "Failed to load certificate from " ++ path ++ utf8 ": " ++ reason
  | notConfigured domain => utf8 "No certificate configured for domain: " ++ domain
  | invalidFormat reason => utf8 "Invalid certificate format: " ++ reason
  | privateKey reason => utf8 "Private key error: " ++ reason

def UpstreamError.display : UpstreamError → Bytes
  | connectionFailed upstream reason =>
      utf8 "Failed to connect to upstream " ++ upstream ++ utf8 ": " ++ reason
  | requestFailed upstream reason =>
      utf8 "Upstream request failed to " ++ upstream ++ utf8 ": " ++ reason

def DnsProxyError.display : DnsProxyError → Bytes
  | .sniRewrite e => utf8 "SNI rewrite failed: " ++ e.display
  | .tls message => utf8 "TLS error: " ++ message
  | .certificate e => utf8 "Certificate error: " ++ e.display
  | .upstream e => utf8 "Upstream connection error: " ++ e.display
  | .timeout peer => utf8 "Upstream timeout: " ++ peer
  | .overloaded peer transport =>
      transport ++ utf8 " upstream pool is overloaded for " ++ peer
  | .io message => utf8 "Network I/O error: " ++ message
  | .protocol message => utf8 "Protocol error: " ++ message
  | .invalidInput message => utf8 "Invalid input: " ++ message

/-- `matches!(error, DnsProxyError::Protocol(_))`. -/
def DnsProxyError.isProtocol : DnsProxyError → Bool
  | .protocol _ => true
  | _ => false

/-- `overloaded(hostname, port, protocol)`. -/
def overloaded (hostname : Bytes) (port : UInt16) (protocol : Bytes) : DnsProxyError :=
  .overloaded (hostname ++ utf8 ":" ++ decimal port.toNat) protocol

/-- `upstream_error(hostname, port, reason)`. -/
def upstreamError (hostname : Bytes) (port : UInt16) (reason : Bytes) : DnsProxyError :=
  .upstream (.connectionFailed (hostname ++ utf8 ":" ++ decimal port.toNat) reason)

end DnsIngress
