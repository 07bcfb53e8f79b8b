import DroidHost.Link.Fault

namespace DroidHost.IoFault

def noSuchFile : IoFault := ⟨.notFound, "No such file or directory (os error 2)"⟩

end DroidHost.IoFault
