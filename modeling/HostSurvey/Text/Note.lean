/-!
# Messages with notes

A message grows on its way up: whoever passes it on may add a note on a line of its own, so that
the notes stand in the order in which they were added.
-/

namespace HostSurvey.Text

def withNote (message note : String) : String := message ++ "\n> " ++ note

end HostSurvey.Text
