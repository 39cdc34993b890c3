/-!
# Environments

A process is told by variables what it works with. A value that is no text counts as
unset.
-/
namespace TaskAudit

abbrev Environment := String → Option String

end TaskAudit
